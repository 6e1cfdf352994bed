import LanLink.Auth.Admission
import LanLink.Auth.ReplayWindow
import LanLink.Protocol.Decisions
import LanLink.Relay.Delivery
import LanLink.Relay.PeerViews
import LanLink.Relay.SessionKeys
/-!
# Relay and clients enforce one policy

The relay decides about a packet from its tables, a client from the last peer
state it was given, and each asks the policy with itself as the first device.
The policy does not depend on the order, so both sides agree about every pair
of members that are connected.
-/
open LanLink.Lib LanLink.Lib.Action

namespace LanLink

/-! ## The policy of an unordered pair -/

section
variable (p : NetworkPolicy) (a b : DeviceId)

theorem policyFanoutAllows_comm : policyFanoutAllows p a b = policyFanoutAllows p b a := by
  rw [policyFanoutAllows, policyFanoutAllows, policyAllows_comm p a b, Bool.and_comm (decide (policyRole p a ≠ .restricted))]

variable {p a b}

/-- Without management everybody may talk to everybody else. -/
theorem policyAllows_unmanaged (hm : p.managed = false) (hne : a ≠ b) (ha : a ≠ 0) (hb : b ≠ 0) : policyAllows p a b = true := by
  rw [policyAllows, if_neg (by tauto), if_pos (by simp [hm])]

theorem policyFanoutAllows_unmanaged (hm : p.managed = false) (hne : a ≠ b) (ha : a ≠ 0) (hb : b ≠ 0) :
    policyFanoutAllows p a b = true := by
  simp [policyFanoutAllows, policyAllows_unmanaged hm hne ha hb, hm]

end

namespace Service
variable {s : Service} {n : NetworkId} {a b d : DeviceId}

/-- A lease of the network sits on a host address of its subnet. -/
theorem placed_of_lease (hw : s.tables.Wf) {x : LeaseAddress} {subnet : SubnetAddress}
    (hx : s.tables.leases.lookup (n, d) = some x) (hsubnet : s.tables.subnets.lookup n = some subnet) :
    Placed subnet.val x.val := by
  obtain ⟨base, hbase, hin⟩ := hw.addressed.lease_inside n d x hx
  rw [hsubnet, Option.some.injEq] at hbase
  subst hbase
  obtain ⟨hlow, hhigh⟩ := host_of_subnet hin x.property.2.2.1 x.property.2.2.2
  obtain ⟨hge, hlt, haligned⟩ := subnet.property
  have haligned' : subnet.val.toNat % 256 = 0 := by
    have h := congrArg UInt32.toNat haligned
    rwa [UInt32.toNat_mod] at h
  exact ⟨hge, hlt, haligned', by omega, by omega⟩

/-! ## Peer states of members -/

/-- The key of a peer that a peer state shows. -/
def shownKey (s : Service) (n : NetworkId) (d : DeviceId) : Option SignedDeviceKey :=
  if (s.tables.policy n).managed ∧ d ∉ s.managementCapable then none else (s.activeKeys.lookup d).map (·.signedKey)

/-- What `make_peer_state` puts together for the member `d` of `n`. -/
structure PeerStateOf (s : Service) (n : NetworkId) (d : DeviceId) (subnet : SubnetAddress) (own : LeaseAddress)
    (state : NetworkPeerState) : Prop where
  networkId : state.networkId = n
  keyEpoch : state.keyEpoch = s.keyEpochFor n
  subnetAddress : state.subnetAddress = subnet.val
  prefixLength : state.prefixLength = 24
  ownAddress : state.ownAddress = own.val
  owner : s.tables.owner n = some state.ownerDeviceId
  policy : state.policy = if (s.tables.policy n).managed then some (s.tables.policy n) else none
  mem : ∀ peer, peer ∈ state.peers ↔ peer.deviceId ≠ d ∧ peer.signedKey = s.shownKey n peer.deviceId ∧
    ∃ x, s.tables.leases.lookup (n, peer.deviceId) = some x ∧ x.val = peer.ipv4Address
  nodup : (state.peers.map (·.deviceId)).Nodup
  length : state.peers.length ≤ maxNetworkPeerEntries

theorem makePeerState_member (hw : s.tables.Wf) {subnet : SubnetAddress} {own : LeaseAddress}
    (hsubnet : s.tables.subnets.lookup n = some subnet) (hown : s.tables.leases.lookup (n, d) = some own) (revision : UInt64) :
    ∃ state, s.makePeerState n d revision = .ok state ∧ PeerStateOf s n d subnet own state := by
  have hmember : (n, d) ∈ s.tables.memberships := (hw.addressed.lease_member _).1 (Map.mem_of_lookup hown)
  have hn : n ∈ s.tables.networks := hw.owned.member_network n d hmember
  have hn0 : n ≠ 0 := fun h0 => hw.owned.nonzero (h0 ▸ hn)
  obtain ⟨network, hnetwork⟩ := Map.mem_iff_lookup.1 hn
  obtain ⟨leases, hleases⟩ : ∃ leases, s.store.listVirtualIpv4Leases n = .ok leases :=
    ⟨_, by rw [Db.listVirtualIpv4Leases, requireNetworkId, check_of hn0, ok_bind]⟩
  have hmem (l : LeaseRecord) : l ∈ leases ↔ ∃ x, s.store.leases.lookup (n, l.deviceId) = some x ∧ x.val = l.address :=
    Db.mem_listVirtualIpv4Leases hleases
  have hnodup := nodup_leases hleases
  have hlength : leases.length ≤ maxNetworkPeerEntries + 1 := @length_leases_le s.store hw n leases hleases
  obtain ⟨mine, hmine⟩ : ∃ mine, leases.find? (·.deviceId = d) = some mine := by
    rw [← Option.isSome_iff_exists, List.find?_isSome]
    exact ⟨⟨d, own.val⟩, (hmem _).2 ⟨own, hown, rfl⟩, by simp⟩
  have hmineMem := List.mem_of_find?_eq_some hmine
  have hmineDevice : mine.deviceId = d := by simpa using List.find?_some hmine
  have hmineAddress : mine.address = own.val := by
    obtain ⟨x, hx, hval⟩ := (hmem mine).1 hmineMem
    rw [hmineDevice] at hx
    rw [← hval, Option.some.inj (hx.symm.trans hown)]
  have hothers : (leases.filter fun l => l.deviceId ≠ d).length ≤ maxNetworkPeerEntries := by
    have hlt : (leases.filter fun l => l.deviceId ≠ d).length < leases.length :=
      List.length_filter_lt_length_iff_exists.2 ⟨mine, hmineMem, by simp [hmineDevice]⟩
    omega
  have hdevices : (leases.filter fun l => l.deviceId ≠ d).map (·.deviceId) |>.Nodup :=
    hnodup.sublist (List.filter_sublist.map _)
  have howner : s.tables.owner n = some network.ownerDeviceId := Tables.lookup_owner hnetwork
  -- the peers, with the keys that are shown of them
  let listed (l : LeaseRecord) : NetworkPeer :=
    { deviceId := l.deviceId, ipv4Address := l.address, signedKey := (s.activeKeys.lookup l.deviceId).map (·.signedKey) }
  let shown (l : LeaseRecord) : NetworkPeer :=
    { deviceId := l.deviceId, ipv4Address := l.address, signedKey := s.shownKey n l.deviceId }
  have hpeers (peer : NetworkPeer) : peer ∈ (leases.filter fun l => l.deviceId ≠ d).map shown ↔ peer.deviceId ≠ d ∧
      peer.signedKey = s.shownKey n peer.deviceId ∧
      ∃ x, s.tables.leases.lookup (n, peer.deviceId) = some x ∧ x.val = peer.ipv4Address := by
    simp only [List.mem_map, List.mem_filter, decide_eq_true_eq, hmem]
    constructor
    · rintro ⟨l, ⟨hlease, hne⟩, rfl⟩
      exact ⟨hne, rfl, hlease⟩
    · rintro ⟨hne, hkey, hlease⟩
      exact ⟨⟨peer.deviceId, peer.ipv4Address⟩, ⟨hlease, hne⟩, by simp only [shown, ← hkey]⟩
  have hnodupPeers : (((leases.filter fun l => l.deviceId ≠ d).map shown).map (·.deviceId)).Nodup := by
    rw [List.map_map]
    exact hdevices
  have hlengthPeers : ((leases.filter fun l => l.deviceId ≠ d).map shown).length ≤ maxNetworkPeerEntries := by
    rwa [List.length_map]
  rw [makePeerState, Db.findSubnet_ok.2 ⟨hn0, Option.map_eq_some_iff.2 ⟨subnet, hsubnet, rfl⟩⟩, ok_bind,
    Db.findNetwork_ok.2 ⟨hn0, Option.map_eq_some_iff.2 ⟨network, hnetwork, rfl⟩⟩, ok_bind]
  dsimp only
  rw [hleases, ok_bind, assemblePeerState, hmine]
  dsimp only
  rw [check_of hlength, ok_bind, ok_bind]
  by_cases hmanaged : (s.store.networkPolicy n).managed
  · have hpolicy : (s.tables.policy n).managed = true := hmanaged
    have hshown : ((leases.filter fun l => l.deviceId ≠ d).map listed).map
          (fun peer => if peer.deviceId ∈ s.managementCapable then peer else { peer with signedKey := none }) =
        (leases.filter fun l => l.deviceId ≠ d).map shown := by
      rw [List.map_map]
      refine List.map_congr_left fun l _ => ?_
      by_cases hcapable : l.deviceId ∈ s.managementCapable <;> simp [listed, shown, shownKey, hpolicy, hcapable]
    rw [if_pos hmanaged]
    refine ⟨_, rfl, rfl, rfl, rfl, rfl, hmineAddress, howner, (if_pos hmanaged).symm, ?_, ?_, ?_⟩
    · intro peer
      exact hshown ▸ hpeers peer
    · exact hshown ▸ hnodupPeers
    · exact hshown ▸ hlengthPeers
  · have hpolicy : ¬ (s.tables.policy n).managed = true := hmanaged
    have hshown : (leases.filter fun l => l.deviceId ≠ d).map listed = (leases.filter fun l => l.deviceId ≠ d).map shown := by
      refine List.map_congr_left fun l _ => ?_
      simp [listed, shown, shownKey, hpolicy]
    rw [if_neg hmanaged]
    refine ⟨_, rfl, rfl, rfl, rfl, rfl, hmineAddress, howner, (if_neg hmanaged).symm, ?_, ?_, ?_⟩
    · intro peer
      exact hshown ▸ hpeers peer
    · exact hshown ▸ hnodupPeers
    · exact hshown ▸ hlengthPeers

section
variable {subnet : SubnetAddress} {own : LeaseAddress} {state : NetworkPeerState}

theorem PeerStateOf.valid (h : PeerStateOf s n d subnet own state) (hw : s.tables.Wf) (hg : s.core.Grounded)
    (hepoch : s.keyEpochFor n ≠ 0) (hsubnet : s.tables.subnets.lookup n = some subnet)
    (hown : s.tables.leases.lookup (n, d) = some own) : validPeerState state = true := by
  have hmember {e : DeviceId} {x : LeaseAddress} (hx : s.tables.leases.lookup (n, e) = some x) :
      (n, e) ∈ s.tables.memberships := (hw.addressed.lease_member _).1 (Map.mem_of_lookup hx)
  have hn0 : state.networkId ≠ 0 := by
    rw [h.networkId]
    rintro rfl
    exact hw.owned.nonzero (hw.owned.member_network 0 d (hmember hown))
  have howner : state.ownerDeviceId ≠ 0 := by
    intro hzero
    obtain ⟨row, hrow, -⟩ := hw.owned.owner_row n _ h.owner
    rw [hzero] at hrow
    exact hg.members n (Map.mem_of_lookup hrow)
  have hplaced := placed_of_lease hw hown hsubnet
  have hdistinct {e e' : DeviceId} {x x' : LeaseAddress} (hx : s.tables.leases.lookup (n, e) = some x)
      (hx' : s.tables.leases.lookup (n, e') = some x') (heq : x.val = x'.val) : e = e' :=
    congrArg Prod.snd (hw.addressed.lease_distinct _ _ x x' hx hx' heq)
  have haddresses : (state.ownAddress :: state.peers.map (·.ipv4Address)).Nodup := by
    rw [List.nodup_cons]
    constructor
    · rw [List.mem_map]
      rintro ⟨peer, hpeer, haddress⟩
      obtain ⟨hne, -, x, hx, hval⟩ := (h.mem peer).1 hpeer
      exact hne (hdistinct hx hown (hval.trans (haddress.trans h.ownAddress)))
    · refine (List.Nodup.of_map _ h.nodup).map_on fun peer hpeer peer' hpeer' haddress => ?_
      obtain ⟨-, -, x, hx, hval⟩ := (h.mem peer).1 hpeer
      obtain ⟨-, -, x', hx', hval'⟩ := (h.mem peer').1 hpeer'
      exact List.inj_on_of_nodup_map h.nodup hpeer hpeer' (hdistinct hx hx' (by rw [hval, hval', haddress]))
  have hpeers : state.peers.all (fun p => p.deviceId ≠ 0 && hostAddress state.subnetAddress p.ipv4Address) = true := by
    rw [List.all_eq_true]
    intro peer hpeer
    obtain ⟨-, -, x, hx, hval⟩ := (h.mem peer).1 hpeer
    rw [Bool.and_eq_true, decide_eq_true_eq, h.subnetAddress, ← hval]
    refine ⟨fun hzero => ?_, (placed_of_lease hw hx hsubnet).hostAddress⟩
    exact hg.members n (hzero ▸ hmember hx)
  have hhost : hostAddress state.subnetAddress state.ownAddress = true := by
    rw [h.subnetAddress, h.ownAddress]
    exact hplaced.hostAddress
  obtain ⟨hge, hlt, haligned⟩ := subnet.property
  rw [← h.subnetAddress] at hge hlt haligned
  rw [← h.keyEpoch] at hepoch
  simp only [validPeerState, hn0, h.prefixLength, howner, hepoch, hhost, h.length, h.nodup, haddresses, hpeers, decide_true,
    decide_false, ne_eq, not_false_eq_true, beq_self_eq_true, Bool.and_true, Bool.true_and, Bool.and_eq_true,
    decide_eq_true_eq]
  exact ⟨⟨hge, hlt⟩, haligned⟩

/-- The keys of a state are those that the devices published. -/
theorem PeerStateOf.verified {crypto : Crypto} (h : PeerStateOf s n d subnet own state) (hk : s.KeysVerified crypto)
    {peer : NetworkPeer} (hpeer : peer ∈ state.peers) {key : SignedDeviceKey} (hkey : peer.signedKey = some key) :
    peer.deviceId ≠ d ∧ verifySignedDeviceKey crypto key peer.deviceId := by
  obtain ⟨hne, hshown, -⟩ := (h.mem peer).1 hpeer
  refine ⟨hne, ?_⟩
  rw [hkey, shownKey] at hshown
  split at hshown
  · cases hshown
  · obtain ⟨k, hlookup, rfl⟩ := Option.map_eq_some_iff.1 hshown.symm
    exact (hk peer.deviceId k hlookup).2

end

end Service

namespace Service
open NetworkPacketCipher
variable {crypto : PacketCrypto} {s : Service} {n : NetworkId} {d e : DeviceId} {subnet : SubnetAddress} {own : LeaseAddress}
  {state : NetworkPeerState} {c c' : NetworkPacketCipher}

/-- A packet cipher of the member `d` for the key epoch that `n` is in. -/
structure CipherOf (crypto : PacketCrypto) (s : Service) (n : NetworkId) (d : DeviceId) (c : NetworkPacketCipher) : Prop where
  wf : c.Wf crypto
  networkId : c.networkId = n
  keyEpoch : c.keyEpoch = s.keyEpochFor n
  ownDeviceId : c.ownDeviceId = d
  address : ∃ own, s.tables.leases.lookup (n, d) = some own ∧ c.ownIpv4Address = own.val

/-- What a peer state of a member relies on, in a state of a run. -/
structure Sound (crypto : Crypto) (s : Service) : Prop where
  wf : s.tables.Wf
  grounded : s.core.Grounded
  verified : s.KeysVerified crypto
  epochs : ∀ n, s.keyEpochFor n ≠ 0

theorem sound_run (crypto : Crypto) (events : ℕ → Event) (k : ℕ) : (run crypto events k).Sound crypto where
  wf := wf_run crypto events k
  grounded := grounded_run crypto events k
  verified := keysVerified_run crypto events k
  epochs := keyEpochFor_ne_zero crypto events k

theorem CipherOf.updates (h : CipherOf crypto s n d c) (hs : s.Sound crypto.toCrypto)
    (hsubnet : s.tables.subnets.lookup n = some subnet) (hown : s.tables.leases.lookup (n, d) = some own)
    (hstate : PeerStateOf s n d subnet own state) : ∃ c', c.updatePeers crypto state = .ok c' := by
  have hvalid := hstate.valid hs.wf hs.grounded (hs.epochs n) hsubnet hown
  have hpolicy : requirePeerState state = .ok () := by
    rw [requirePeerState, check_of hvalid, ok_bind, hstate.policy]
    by_cases hmanaged : (s.tables.policy n).managed
    · rw [if_pos hmanaged]
      exact check_of (s.tables.encodable_policy n)
    · rw [if_neg hmanaged]
  have hsame : ¬ (state.networkId ≠ c.networkId ∨ state.keyEpoch ≠ c.keyEpoch ∨ state.ownAddress ≠ c.ownIpv4Address) := by
    obtain ⟨own', hown', haddress⟩ := h.address
    rw [hown, Option.some.injEq] at hown'
    rw [h.networkId, h.keyEpoch, haddress, ← hown', hstate.networkId, hstate.keyEpoch, hstate.ownAddress]
    simp
  have hkeys : ∀ peer ∈ state.peers, ∀ key, peer.signedKey = some key →
      peer.deviceId ≠ c.ownDeviceId ∧ verifySignedDeviceKey crypto.toCrypto key peer.deviceId := by
    intro peer hpeer key hkey
    rw [h.ownDeviceId]
    exact hstate.verified hs.verified hpeer hkey
  obtain ⟨peers, hpeers⟩ := receivers_succeeds state.policy hkeys ∅
  rw [updatePeers, check_of hsame, ok_bind, hpolicy, ok_bind, hpeers, ok_bind]
  exact ⟨_, rfl⟩

/-- Two members, neither of them the zero device. -/
structure Pair (d e : DeviceId) : Prop where
  ne : d ≠ e
  left : d ≠ 0
  right : e ≠ 0

theorem Pair.symm (h : Pair d e) : Pair e d := ⟨h.ne.symm, h.right, h.left⟩

/-- The policy that is sent along decides as the stored one. -/
theorem PeerStateOf.policy_all (h : PeerStateOf s n d subnet own state) (hpair : Pair d e) :
    (state.policy.all fun p => policyAllows p d e) = policyAllows (s.tables.policy n) d e ∧
    (state.policy.all fun p => policyFanoutAllows p d e) = policyFanoutAllows (s.tables.policy n) d e := by
  rw [h.policy]
  by_cases hmanaged : (s.tables.policy n).managed
  · rw [if_pos hmanaged]
    exact ⟨rfl, rfl⟩
  · rw [Bool.not_eq_true] at hmanaged
    rw [if_neg (by simp [hmanaged]), policyAllows_unmanaged hmanaged hpair.ne hpair.left hpair.right,
      policyFanoutAllows_unmanaged hmanaged hpair.ne hpair.left hpair.right]
    exact ⟨rfl, rfl⟩

/-- The receiver of a connected member is there when the policy allows it. -/
theorem receiver_iff (hup : Updated crypto c state c') (hstate : PeerStateOf s n d subnet own state) (hc : c.ownDeviceId = d)
    (hpair : Pair d e) {x : LeaseAddress} (hx : s.tables.leases.lookup (n, e) = some x) {key : SignedDeviceKey}
    (hkey : s.shownKey n e = some key) (r : PeerReceiver) :
    c'.peers.lookup e = some r ↔ policyAllows (s.tables.policy n) d e = true ∧
      r = c.receiverFor crypto state.policy ⟨e, x.val, some key⟩ key := by
  rw [hup.lookup]
  constructor
  · rintro ⟨⟨e', address, shown⟩, key', ⟨hmem, hsigned, hallowed⟩, rfl, rfl⟩
    obtain ⟨-, hshown, x', hx', haddress⟩ := (hstate.mem _).1 hmem
    dsimp only at hsigned hshown hx' haddress hallowed
    rw [hc, (hstate.policy_all hpair).1] at hallowed
    rw [hx, Option.some.injEq] at hx'
    subst hx' haddress
    rw [hkey] at hshown
    subst hshown
    cases hsigned
    exact ⟨hallowed, rfl⟩
  · rintro ⟨hallowed, rfl⟩
    refine ⟨⟨e, x.val, some key⟩, key, ⟨?_, rfl, ?_⟩, rfl, rfl⟩
    · exact (hstate.mem _).2 ⟨hpair.ne.symm, hkey.symm, x, hx, rfl⟩
    · dsimp only
      rw [hc, (hstate.policy_all hpair).1]
      exact hallowed

/-- A member that the client of another member is told of: its lease and its key. -/
structure Shown (s : Service) (n : NetworkId) (e : DeviceId) (x : LeaseAddress) (key : SignedDeviceKey) : Prop where
  lease : s.tables.leases.lookup (n, e) = some x
  key : s.shownKey n e = some key

/-- The cipher of `d` after it was given the peer state of `d`. -/
structure Client (crypto : PacketCrypto) (s : Service) (n : NetworkId) (d : DeviceId) (subnet : SubnetAddress) (own : LeaseAddress)
    (c' : NetworkPacketCipher) : Prop where
  wf : c'.Wf crypto
  updated : ∃ (c : NetworkPacketCipher) (state : NetworkPeerState), c.ownDeviceId = d ∧ c.updatePeers crypto state = .ok c' ∧ PeerStateOf s n d subnet own state
  address : c'.ownIpv4Address = own.val

theorem CipherOf.client (h : CipherOf crypto s n d c) (hown : s.tables.leases.lookup (n, d) = some own)
    (hstate : PeerStateOf s n d subnet own state) (hup : c.updatePeers crypto state = .ok c') :
    Client crypto s n d subnet own c' where
  wf := (updatePeers_ok hup).wf h.wf
  updated := ⟨c, state, h.ownDeviceId, hup, hstate⟩
  address := by
    obtain ⟨own', hown', haddress⟩ := h.address
    rw [hown, Option.some.injEq] at hown'
    rw [(updatePeers_ok hup).same.ownIpv4Address, haddress, hown']

section
variable {x : LeaseAddress} {key : SignedDeviceKey}

theorem Client.knows_iff (h : Client crypto s n d subnet own c') (hpair : Pair d e) (he : Shown s n e x key) :
    c'.Knows e ↔ policyAllows (s.tables.policy n) d e = true := by
  obtain ⟨c, state, hc, hup, hstate⟩ := h.updated
  have hreceiver := receiver_iff (updatePeers_ok hup) hstate hc hpair he.lease he.key
  rw [Knows, Map.mem_iff_lookup]
  simp only [hreceiver, exists_and_left, exists_eq, and_true]

theorem Client.acceptsFanout_iff (h : Client crypto s n d subnet own c') (hpair : Pair d e) (he : Shown s n e x key) :
    c'.AcceptsFanout e ↔ policyFanoutAllows (s.tables.policy n) d e = true := by
  obtain ⟨c, state, hc, hup, hstate⟩ := h.updated
  have hreceiver := receiver_iff (updatePeers_ok hup) hstate hc hpair he.lease he.key
  have hflag : (c.receiverFor crypto state.policy ⟨e, x.val, some key⟩ key).fanoutAllowed =
      policyFanoutAllows (s.tables.policy n) d e := by
    rw [← (hstate.policy_all hpair).2, ← hc]
    rfl
  simp only [AcceptsFanout, hreceiver]
  constructor
  · rintro ⟨r, ⟨-, rfl⟩, hallowed⟩
    rwa [hflag] at hallowed
  · intro hallowed
    refine ⟨_, ⟨?_, rfl⟩, hflag.trans hallowed⟩
    rw [policyFanoutAllows, Bool.and_eq_true] at hallowed
    exact hallowed.1

/-- Only `e` holds its address, so its receiver is what the policy check looks for. -/
theorem Client.admits_iff (h : Client crypto s n d subnet own c') (hs : s.Sound crypto.toCrypto)
    (hsubnet : s.tables.subnets.lookup n = some subnet) (hown : s.tables.leases.lookup (n, d) = some own)
    (hpair : Pair d e) (he : Shown s n e x key) {packet : Bytes} (hpacket : ipv4Addresses packet = .ok (own.val, x.val)) :
    c'.Admits crypto packet ↔ policyAllows (s.tables.policy n) d e = true := by
  obtain ⟨c, state, hc, hup, hstate⟩ := h.updated
  have hupdated := updatePeers_ok hup
  have hreceiver := receiver_iff hupdated hstate hc hpair he.lease he.key
  have hdistinct {e' : DeviceId} {x' : LeaseAddress} (hx' : s.tables.leases.lookup (n, e') = some x') (heq : x'.val = x.val) :
      e' = e := congrArg Prod.snd (hs.wf.addressed.lease_distinct _ _ x' x hx' he.lease heq)
  have hplaced : Placed c'.subnetAddress x.val := by
    rw [hupdated.subnet, hstate.subnetAddress]
    exact placed_of_lease hs.wf he.lease hsubnet
  have hne : x.val ≠ c'.ownIpv4Address := by
    rw [h.address]
    intro heq
    exact hpair.ne (hdistinct hown heq.symm)
  have hmanaged : c'.managed = (s.tables.policy n).managed := by
    rw [managed_updatePeers hup, hstate.policy]
    cases hm : (s.tables.policy n).managed <;> simp [hm]
  have hfound : (∃ e' r, c'.peers.lookup e' = some r ∧ r.ipv4Address = x.val) ↔
      policyAllows (s.tables.policy n) d e = true := by
    constructor
    · rintro ⟨e', r, hr, haddress⟩
      obtain ⟨peer, key', ⟨hmem, -⟩, rfl, rfl⟩ := (hupdated.lookup e' r).1 hr
      rw [ipv4Address_receiverFor] at haddress
      obtain ⟨-, -, x', hx', hval⟩ := (hstate.mem peer).1 hmem
      have hsame := hdistinct hx' (hval.trans haddress)
      rw [hsame] at hr
      exact ((hreceiver _).1 hr).1
    · intro hallowed
      exact ⟨e, _, (hreceiver _).2 ⟨hallowed, rfl⟩, ipv4Address_receiverFor _ _ _⟩
  rw [NetworkPacketCipher.admits_iff h.wf (by rw [h.address]; exact hpacket) hupdated.prefixed hplaced hne, hmanaged, hfound]
  constructor
  · intro hallowed
    by_cases hm : (s.tables.policy n).managed
    · exact hallowed hm
    · exact policyAllows_unmanaged (by simpa using hm) hpair.ne hpair.left hpair.right
  · exact fun hallowed _ => hallowed

end

/-! ## What the relay lets through -/

/-- The relay sends the packet of `actor` on to `d`. -/
def Routes (s : Service) (inputs : Inputs) (actor : DeviceId) (p : EncryptedNetworkPacket) (d : DeviceId) : Prop :=
  ∃ rs, (routeEncryptedPacket inputs actor p s).1 = .ok rs ∧ deliver actor p d ∈ rs

/-- A valid packet of `n` for the key epoch that `n` is in. -/
structure InEpoch (s : Service) (n : NetworkId) (p : EncryptedNetworkPacket) : Prop where
  valid : validPacket p
  networkId : p.networkId = n
  keyEpoch : p.keyEpoch = s.keyEpochFor n

section
variable {a b : DeviceId} {key : ActiveKey} {p : EncryptedNetworkPacket} {inputs : Inputs} {leases : List LeaseRecord}

/-- A connected member that is not revoked gets past the first checks. -/
theorem routeEncryptedPacket_eq (inputs : Inputs) (ha : a ≠ 0) (hallowed : ¬ s.core.revoked a) (hp : s.InEpoch n p)
    (hn : n ∈ s.tables.networks) (hkey : s.activeKeys.lookup a = some key)
    (hown : s.tables.leases.lookup (n, a) = some own) (hsubnet : s.tables.subnets.lookup n = some subnet)
    (hdest : own.val ≠ p.destinationIpv4) (hleases : s.store.listVirtualIpv4Leases n = .ok leases) :
    (routeEncryptedPacket inputs a p s).1 =
      .ok (if isIpv4FanoutDestination p.destinationIpv4 subnet.val virtualIpv4PrefixLength then
        (s.routeFanout inputs a key p leases).1 else (s.routeUnicast inputs a p leases).1) := by
  obtain ⟨network, hnetwork⟩ := Map.mem_iff_lookup.1 hn
  have hsender : s.admittedSender a p = some (key, subnet) := by
    rw [admittedSender, hp.networkId, show s.store.networks.lookup n = some network from hnetwork, hkey,
      show s.store.leases.lookup (n, a) = some own from hown, show s.store.subnets.lookup n = some subnet from hsubnet]
    dsimp only
    rw [if_neg (by rw [hp.keyEpoch]; simp [hdest])]
  have hdevice : s.deviceAllowed a = true := by
    rw [deviceAllowed_eq]
    simpa using hallowed
  change Post (routeEncryptedPacket inputs a p) s fun r _ => r = _
  unfold routeEncryptedPacket
  rw [post_gets_bind, hdevice, if_neg (by rw [not_or]; exact ⟨ha, by simp⟩), post_bind, post_lift, requirePacket, check_of hp.valid]
  dsimp only
  rw [post_gets_bind, hsender]
  dsimp only
  rw [hp.networkId]
  refine post_read (fun leases' hleases' => ?_) (fun e he => ?_)
  · rw [hleases] at hleases'
    cases hleases'
    rw [post_ite]
    constructor
    · intro hfanout
      rw [if_pos hfanout]
      rfl
    · intro hfanout
      rw [if_neg hfanout]
      rfl
  · rw [hleases] at he
    cases he

/-- The limits on fan-out packets let this one pass. -/
def FanoutAdmitted (s : Service) (inputs : Inputs) (actor : DeviceId) (p : EncryptedNetworkPacket) : Prop :=
  p.ciphertext.length ≤ 1400 ∧
    (∀ key, s.activeKeys.lookup actor = some key → ¬ replayed (currentReplay (s.fanoutReplay.getD (p.networkId, actor) {})
      p.keyEpoch key.signedKey.encryptionPublicKey) p) ∧
    ∀ leases, s.store.listVirtualIpv4Leases p.networkId = .ok leases →
      (s.chargeFanout inputs actor p (s.fanoutRecipients actor p leases).length).1 = true

theorem chargeFanout_replay (s : Service) (replay : Map (NetworkId × DeviceId) FanoutReplay) (count : ℕ) :
    ({ s with fanoutReplay := replay }.chargeFanout inputs a p count).1 = (s.chargeFanout inputs a p count).1 := by
  unfold chargeFanout
  dsimp only
  split
  · rfl
  · split <;> rfl

/-- Within the limits a fan-out packet goes to all its recipients. -/
theorem routeFanout_admitted (hkey : s.activeKeys.lookup a = some key)
    (hleases : s.store.listVirtualIpv4Leases p.networkId = .ok leases) (h : s.FanoutAdmitted inputs a p) :
    (s.routeFanout inputs a key p leases).1 = (s.fanoutRecipients a p leases).map (deliver a p) := by
  obtain ⟨hsize, hfresh, hcharged⟩ := h
  have hcharge := hcharged leases hleases
  unfold routeFanout
  rw [if_neg (Nat.not_lt.2 hsize)]
  dsimp only
  rw [if_neg (hfresh key hkey)]
  split
  · rename_i hnone
    have hnil : s.fanoutRecipients a p leases = [] := hnone
    rw [hnil]
    rfl
  · rw [← chargeFanout_replay s (s.fanoutReplay.insert (p.networkId, a) (currentReplay (s.fanoutReplay.getD (p.networkId, a) {})
      p.keyEpoch key.signedKey.encryptionPublicKey))] at hcharge
    split
    · rename_i hrefused
      have hfalse := congrArg Prod.fst hrefused
      exact absurd (hcharge.symm.trans hfalse) (by simp)
    · rfl

theorem trafficAllowed_iff (hcapable : (s.tables.policy n).managed → a ∈ s.managementCapable ∧ b ∈ s.managementCapable)
    (fanout : Bool) : s.trafficAllowed n a b fanout =
      if fanout then policyFanoutAllows (s.tables.policy n) a b else policyAllows (s.tables.policy n) a b := by
  rw [trafficAllowed, show s.store.networkPolicy n = s.tables.policy n from rfl]
  by_cases hm : (s.tables.policy n).managed
  · obtain ⟨ha, hb⟩ := hcapable hm
    simp [ha, hb]
  · simp [hm]

theorem routeUnicast_iff (hw : s.tables.Wf) (hleases : s.store.listVirtualIpv4Leases n = .ok leases) (hp : s.InEpoch n p)
    {x : LeaseAddress} (hx : s.tables.leases.lookup (n, b) = some x) (hdest : p.destinationIpv4 = x.val)
    (hkey : b ∈ s.activeKeys)
    (hcapable : (s.tables.policy n).managed → a ∈ s.managementCapable ∧ b ∈ s.managementCapable)
    (hquota : (s.quota.admits a n (forwardedSize p) 1 inputs.now).1 = true) :
    deliver a p b ∈ (s.routeUnicast inputs a p leases).1 ↔ policyAllows (s.tables.policy n) a b = true := by
  obtain ⟨l, hl⟩ : ∃ l, leases.find? (·.address = p.destinationIpv4) = some l := by
    rw [← Option.isSome_iff_exists, List.find?_isSome]
    exact ⟨⟨b, x.val⟩, (Db.mem_listVirtualIpv4Leases hleases).2 ⟨x, hx, rfl⟩, by simp [hdest]⟩
  have hlb : l.deviceId = b := by
    obtain ⟨y, hy, hval⟩ := (Db.mem_listVirtualIpv4Leases hleases).1 (List.mem_of_find?_eq_some hl)
    have haddress : l.address = p.destinationIpv4 := by simpa using List.find?_some hl
    exact congrArg Prod.snd (hw.addressed.lease_distinct _ _ y x hy hx ((hval.trans haddress).trans hdest))
  unfold routeUnicast
  rw [hl]
  dsimp only
  rw [hlb, hp.networkId, trafficAllowed_iff hcapable]
  by_cases hallowed : policyAllows (s.tables.policy n) a b = true
  · rw [if_neg (by simp [hkey, hallowed])]
    split
    · rename_i hrefused
      rw [hrefused] at hquota
      cases hquota
    · simp [hallowed]
  · rw [if_pos (.inr hallowed)]
    simp [hallowed]

theorem mem_fanoutRecipients (hleases : s.store.listVirtualIpv4Leases n = .ok leases) (hp : s.InEpoch n p)
    {x : LeaseAddress} (hx : s.tables.leases.lookup (n, b) = some x) (hkey : b ∈ s.activeKeys) (hne : a ≠ b)
    (hcapable : (s.tables.policy n).managed → a ∈ s.managementCapable ∧ b ∈ s.managementCapable) :
    b ∈ s.fanoutRecipients a p leases ↔ policyFanoutAllows (s.tables.policy n) a b = true := by
  have htraffic := trafficAllowed_iff hcapable true
  rw [if_pos rfl] at htraffic
  simp only [fanoutRecipients, List.mem_map, List.mem_filter, Bool.and_eq_true, decide_eq_true_eq, hp.networkId]
  constructor
  · rintro ⟨l, ⟨-, -, hallowed⟩, rfl⟩
    rwa [← htraffic]
  · intro hallowed
    exact ⟨⟨b, x.val⟩, ⟨(Db.mem_listVirtualIpv4Leases hleases).2 ⟨x, hx, rfl⟩, ⟨hne.symm, hkey⟩, htraffic.trans hallowed⟩, rfl⟩

end

/-! ## Agreement -/

/-- Two different members of `n` that are connected and, where it matters, capable. -/
structure Connected (s : Service) (n : NetworkId) (a b : DeviceId) : Prop where
  ne : a ≠ b
  members : (n, a) ∈ s.tables.memberships ∧ (n, b) ∈ s.tables.memberships
  keys : a ∈ s.activeKeys ∧ b ∈ s.activeKeys
  capable : (s.tables.policy n).managed → a ∈ s.managementCapable ∧ b ∈ s.managementCapable

/-- The relay and the ciphers of `a` and `b` agree about the packets from `a` to `b`. -/
structure Agree (crypto : PacketCrypto) (s : Service) (n : NetworkId) (a b : DeviceId) (ca cb : NetworkPacketCipher) : Prop where
  unicast : ∀ inputs p packet, s.InEpoch n p → ipv4Addresses packet = .ok (ca.ownIpv4Address, p.destinationIpv4) →
    p.destinationIpv4 = cb.ownIpv4Address → (s.quota.admits a n (forwardedSize p) 1 inputs.now).1 = true →
    (s.Routes inputs a p b ↔ ca.Admits crypto packet ∧ cb.Knows a)
  fanout : ∀ inputs p, s.InEpoch n p → s.FansOut p → s.FanoutAdmitted inputs a p →
    (s.Routes inputs a p b ↔ cb.AcceptsFanout a)

/-- The ciphers of `a` and `b` take the peer states that the relay makes for them, and then both sides agree. -/
def Enforced (crypto : PacketCrypto) (s : Service) : Prop :=
  ∀ n a b, s.Connected n a b → ∀ ra rb, ∃ sa sb, s.makePeerState n a ra = .ok sa ∧ s.makePeerState n b rb = .ok sb ∧
    ∀ ca cb, CipherOf crypto s n a ca → CipherOf crypto s n b cb →
      ∃ ca' cb', ca.updatePeers crypto sa = .ok ca' ∧ cb.updatePeers crypto sb = .ok cb' ∧ Agree crypto s n a b ca' cb'

section
variable {a b : DeviceId}

theorem Connected.pair (h : s.Connected n a b) (hg : s.core.Grounded) : Pair a b := by
  refine ⟨h.ne, ?_, ?_⟩
  · rintro rfl
    exact hg.members n h.members.1
  · rintro rfl
    exact hg.members n h.members.2

theorem Connected.symm (h : s.Connected n a b) : s.Connected n b a :=
  ⟨h.ne.symm, h.members.symm, h.keys.symm, fun hm => (h.capable hm).symm⟩

theorem Connected.shown (h : s.Connected n a b) (hw : s.tables.Wf) : ∃ x key, Shown s n b x key := by
  obtain ⟨x, hx⟩ := Map.mem_iff_lookup.1 ((hw.addressed.lease_member _).2 h.members.2)
  obtain ⟨k, hk⟩ := Map.mem_iff_lookup.1 h.keys.2
  refine ⟨x, k.signedKey, hx, ?_⟩
  rw [shownKey, if_neg (by rintro ⟨hm, hnot⟩; exact hnot (h.capable hm).2), hk]
  rfl

/-- The fan-out addresses of a network are nobody's own. -/
theorem not_own_of_fansOut (hw : s.tables.Wf) {p : EncryptedNetworkPacket} {x : LeaseAddress}
    (hx : s.tables.leases.lookup (n, a) = some x) (hsubnet : s.tables.subnets.lookup n = some subnet)
    (hfanout : isIpv4FanoutDestination p.destinationIpv4 subnet.val virtualIpv4PrefixLength = true) :
    x.val ≠ p.destinationIpv4 := by
  intro heq
  have hnot := (placed_of_lease hw hx hsubnet).not_fanout
  rw [heq] at hnot
  exact absurd (hfanout.symm.trans hnot) (by simp)

/-- The policy decides on both sides, if the sender is not revoked. -/
theorem Connected.agree (h : s.Connected n a b) (hs : s.Sound crypto.toCrypto) (hallowed : ¬ s.core.revoked a)
    {x y : LeaseAddress} {ka kb : SignedDeviceKey} (ha : Shown s n a x ka) (hb : Shown s n b y kb)
    (hsubnet : s.tables.subnets.lookup n = some subnet) {ca cb : NetworkPacketCipher}
    (hca : Client crypto s n a subnet x ca) (hcb : Client crypto s n b subnet y cb) : Agree crypto s n a b ca cb := by
  have hpair := h.pair hs.grounded
  have hn : n ∈ s.tables.networks := hs.wf.owned.member_network n a h.members.1
  have hn0 : n ≠ 0 := fun h0 => hs.wf.owned.nonzero (h0 ▸ hn)
  obtain ⟨key, hkey⟩ := Map.mem_iff_lookup.1 h.keys.1
  obtain ⟨leases, hleases⟩ : ∃ leases, s.store.listVirtualIpv4Leases n = .ok leases :=
    ⟨_, by rw [Db.listVirtualIpv4Leases, requireNetworkId, check_of hn0, ok_bind]⟩
  constructor
  · intro inputs p packet hp hpacket hdest hquota
    rw [hcb.address] at hdest
    rw [hca.address, hdest] at hpacket
    have hxy : x.val ≠ y.val := by
      intro heq
      exact h.ne (congrArg Prod.snd (hs.wf.addressed.lease_distinct _ _ x y ha.lease hb.lease heq))
    have hroute := routeEncryptedPacket_eq inputs hpair.left hallowed hp hn hkey ha.lease hsubnet
      (by rw [hdest]; exact hxy) hleases
    have hunicast : ¬ isIpv4FanoutDestination p.destinationIpv4 subnet.val virtualIpv4PrefixLength = true := by
      intro hfanout
      exact not_own_of_fansOut hs.wf hb.lease hsubnet hfanout hdest.symm
    rw [if_neg hunicast] at hroute
    have hrelay : s.Routes inputs a p b ↔ policyAllows (s.tables.policy n) a b = true := by
      rw [← routeUnicast_iff hs.wf hleases hp hb.lease hdest h.keys.2 h.capable hquota]
      simp only [Routes, hroute, Except.ok.injEq, exists_eq_left']
    rw [hrelay, hca.admits_iff hs hsubnet ha.lease hpair hb hpacket, hcb.knows_iff hpair.symm ha,
      policyAllows_comm _ b a, and_self]
  · intro inputs p hp hfans hadmitted
    obtain ⟨subnet', hsubnet', hfanout⟩ := hfans
    rw [hp.networkId, hsubnet, Option.some.injEq] at hsubnet'
    subst hsubnet'
    have hroute := routeEncryptedPacket_eq inputs hpair.left hallowed hp hn hkey ha.lease hsubnet
      (not_own_of_fansOut hs.wf ha.lease hsubnet hfanout) hleases
    rw [if_pos hfanout, routeFanout_admitted hkey (by rw [hp.networkId]; exact hleases) hadmitted] at hroute
    have hrelay : s.Routes inputs a p b ↔ policyFanoutAllows (s.tables.policy n) a b = true := by
      rw [← mem_fanoutRecipients hleases hp hb.lease h.keys.2 h.ne h.capable]
      simp only [Routes, hroute, Except.ok.injEq, exists_eq_left', List.mem_map]
      constructor
      · rintro ⟨d, hd, heq⟩
        have hdb : d = b := congrArg RoutedEncryptedPacket.recipientDeviceId heq
        rwa [← hdb]
      · exact fun hb => ⟨b, hb, rfl⟩
    rw [hrelay, hcb.acceptsFanout_iff hpair.symm ha, policyFanoutAllows_comm _ b a]

theorem enforced_of_sound (hs : s.Sound crypto.toCrypto) (hk : s.core.KeysAllowed) : Enforced crypto s := by
  intro n a b h ra rb
  have hn : n ∈ s.tables.networks := hs.wf.owned.member_network n a h.members.1
  obtain ⟨subnet, hsubnet⟩ := Map.mem_iff_lookup.1 ((hs.wf.addressed.subnet_network n).2 hn)
  obtain ⟨x, ka, ha⟩ := h.symm.shown hs.wf
  obtain ⟨y, kb, hb⟩ := h.shown hs.wf
  obtain ⟨sa, hsa, hstateA⟩ := makePeerState_member hs.wf hsubnet ha.lease ra
  obtain ⟨sb, hsb, hstateB⟩ := makePeerState_member hs.wf hsubnet hb.lease rb
  refine ⟨sa, sb, hsa, hsb, fun ca cb hca hcb => ?_⟩
  obtain ⟨ca', hupA⟩ := hca.updates hs hsubnet ha.lease hstateA
  obtain ⟨cb', hupB⟩ := hcb.updates hs hsubnet hb.lease hstateB
  exact ⟨ca', cb', hupA, hupB, h.agree hs (hk a h.keys.1) ha hb hsubnet (hca.client ha.lease hstateA hupA)
    (hcb.client hb.lease hstateB hupB)⟩

/-- A revoked device that is still connected: the clients talk, the relay does not let them. -/
theorem Connected.disagree (h : s.Connected n a b) (hs : s.Sound crypto.toCrypto) (hrevoked : s.core.revoked a)
    (hpolicy : policyAllows (s.tables.policy n) a b = true) {ca cb : NetworkPacketCipher} (hca : CipherOf crypto s n a ca)
    (hcb : CipherOf crypto s n b cb) (inputs : Inputs) {p : EncryptedNetworkPacket} {packet : Bytes} (hp : s.InEpoch n p)
    (hpacket : ipv4Addresses packet = .ok (ca.ownIpv4Address, p.destinationIpv4))
    (hdest : p.destinationIpv4 = cb.ownIpv4Address) (hquota : (s.quota.admits a n (forwardedSize p) 1 inputs.now).1 = true) :
    ¬ Enforced crypto s := by
  intro henforced
  have hpair := h.pair hs.grounded
  have hn : n ∈ s.tables.networks := hs.wf.owned.member_network n a h.members.1
  obtain ⟨subnet, hsubnet⟩ := Map.mem_iff_lookup.1 ((hs.wf.addressed.subnet_network n).2 hn)
  obtain ⟨x, ka, ha⟩ := h.symm.shown hs.wf
  obtain ⟨y, kb, hb⟩ := h.shown hs.wf
  obtain ⟨sa, sb, hsa, hsb, hagree⟩ := henforced n a b h 0 0
  obtain ⟨ca', cb', hupA, hupB, hagree⟩ := hagree ca cb hca hcb
  have hclientA : Client crypto s n a subnet x ca' := by
    obtain ⟨state, hstate, hof⟩ := makePeerState_member hs.wf hsubnet ha.lease 0
    rw [hsa] at hstate
    cases hstate
    exact hca.client ha.lease hof hupA
  have hclientB : Client crypto s n b subnet y cb' := by
    obtain ⟨state, hstate, hof⟩ := makePeerState_member hs.wf hsubnet hb.lease 0
    rw [hsb] at hstate
    cases hstate
    exact hcb.client hb.lease hof hupB
  have hsourceA := (updatePeers_ok hupA).same.ownIpv4Address
  have hsourceB := (updatePeers_ok hupB).same.ownIpv4Address
  rw [← hsourceA] at hpacket
  rw [← hsourceB] at hdest
  have hunicast := hagree.unicast inputs p packet hp hpacket hdest hquota
  rw [hdest, hclientA.address, hclientB.address] at hpacket
  rw [hclientA.admits_iff hs hsubnet ha.lease hpair hb hpacket, hclientB.knows_iff hpair.symm ha, policyAllows_comm _ b a,
    and_self] at hunicast
  obtain ⟨rs, hroute, hmem⟩ := hunicast.2 hpolicy
  have hdenied : s.deviceAllowed a = false := by
    rw [deviceAllowed_eq]
    simpa using hrevoked
  have hnothing : (routeEncryptedPacket inputs a p s).1 = .ok [] := by
    change Post (routeEncryptedPacket inputs a p) s fun r _ => r = .ok []
    unfold routeEncryptedPacket
    rw [post_gets_bind, hdenied, if_pos (.inr (by simp))]
    rfl
  rw [hnothing] at hroute
  cases hroute
  cases hmem

end

/-- In every state of a run whose revocations find room in the counters. -/
theorem enforcement_agrees (crypto : PacketCrypto) (events : ℕ → Event)
    (hroom : ∀ k, (run crypto.toCrypto events k).RevokesInRoom (events k)) (k : ℕ) :
    Enforced crypto (run crypto.toCrypto events k) :=
  enforced_of_sound (sound_run crypto.toCrypto events k) (keysAllowed_run crypto.toCrypto hroom k)

/-! ## The operator and the laptop -/

/-- From the laptop to the operator in the office, at 10.64.1.2 and 10.64.1.1. -/
def laptopPlaintext : Bytes := [0x45, 0, 0, 20, 0, 0, 0, 0, 64, 17, 0, 0, 10, 64, 1, 2, 10, 64, 1, 1]

def toOperator : EncryptedNetworkPacket := { toLaptop with destinationIpv4 := 0x0a400101 }

def officeCipher (d : DeviceId) (address : UInt32) : NetworkPacketCipher :=
  { networkId := office, keyEpoch := 3, networkKey := 5, ownDeviceId := d, ownSessionPublicKey := d, ownIpv4Address := address
    outgoingKey := deriveSenderKey plainPacketCrypto 5 office 3 d d, outgoingNoncePrefix := 7 }

theorem officeCipher_wf {d : DeviceId} {address : UInt32}
    (h : make plainPacketCrypto 7 office 3 5 d (keyOf d) address = .ok (officeCipher d address)) :
    (officeCipher d address).Wf plainPacketCrypto := (make_ok h).1

theorem enforcement_agrees_office :
    (run plainCrypto enrolling 13).Connected office laptop operator ∧ Enforced plainPacketCrypto (run plainCrypto enrolling 13) := by
  refine ⟨⟨by decide +kernel, by decide +kernel, by decide +kernel, by decide +kernel⟩, ?_⟩
  exact enforcement_agrees plainPacketCrypto enrolling enrolling_inRoom 13

/-- The revocation stopped before it reached the office: the clients still exchange packets. -/
theorem revoked_laptop_connected : ¬ Enforced plainPacketCrypto (run plainCrypto stopping (2 ^ 64 + 9)) := by
  have hs := sound_run plainCrypto stopping (2 ^ 64 + 9)
  rw [run_stopping] at hs ⊢
  have hconnected : Connected (((run plainCrypto enrolling 13).withRevision soleNetwork uint64Max).step plainCrypto revoking)
      office laptop operator := ⟨by decide +kernel, by decide +kernel, by decide +kernel, by decide +kernel⟩
  have hlaptop : CipherOf plainPacketCrypto
      (((run plainCrypto enrolling 13).withRevision soleNetwork uint64Max).step plainCrypto revoking) office laptop
      (officeCipher laptop 0x0a400102) :=
    ⟨officeCipher_wf rfl, rfl, by decide +kernel, rfl, ⟨0x0a400102, by decide⟩, by decide +kernel, rfl⟩
  have hoperator : CipherOf plainPacketCrypto
      (((run plainCrypto enrolling 13).withRevision soleNetwork uint64Max).step plainCrypto revoking) office operator
      (officeCipher operator 0x0a400101) :=
    ⟨officeCipher_wf rfl, rfl, by decide +kernel, rfl, ⟨0x0a400101, by decide⟩, by decide +kernel, rfl⟩
  have hpacket : ipv4Addresses laptopPlaintext = .ok (0x0a400102, toOperator.destinationIpv4) := by decide +kernel
  exact hconnected.disagree hs (by decide +kernel) (by decide +kernel) hlaptop hoperator soleInputs
    ⟨by decide +kernel, rfl, by decide +kernel⟩ hpacket rfl (by decide +kernel)

end Service

end LanLink
