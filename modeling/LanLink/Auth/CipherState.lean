import LanLink.Auth.PacketCrypto
import LanLink.Protocol.Subnets
/-!
# What a packet cipher does

One lemma for each function of the packet cipher, and the invariant of its
state: the keys it holds are those derived for their devices, and once it has
peers it sits on a host address of a `/24` of the virtual pool.
-/
open LanLink.Lib

namespace LanLink

/-! ## Addresses -/

section
variable {subnet address destination : UInt32}

theorem isIpv4ScopedMulticast_bounds (h : isIpv4ScopedMulticast destination) :
    0xe0000000 ≤ destination.toNat ∧ destination.toNat < 0xf0000000 := by
  unfold isIpv4ScopedMulticast at h
  simp only [Bool.or_eq_true, decide_eq_true_eq] at h
  rcases h with (h | rfl) | rfl
  · have hmask := toNat_and_subnetMask (p := 8) (by decide) (by decide) destination
    rw [show subnetMask 8 = 0xff000000 by decide, h] at hmask
    have htrunc : 0xef000000 = destination.toNat / 2 ^ 24 * 2 ^ 24 := hmask
    omega
  · decide
  · decide

/-- The broadcast address of a `/24` of the pool. -/
theorem broadcast_bounds (ha : subnet.toNat % 256 = 0) :
    (subnet ||| ~~~(subnetMask 24)).toNat = subnet.toNat + 255 := by
  rw [UInt32.toNat_or, show (~~~(subnetMask 24)).toNat = 255 by decide]
  have hshift : subnet.toNat = (subnet.toNat / 256) <<< 8 := by
    rw [Nat.shiftLeft_eq]
    omega
  rw [hshift, ← Nat.shiftLeft_add_eq_or_of_lt (by decide)]

/-- The subnet and own address of a valid peer state. -/
structure Placed (subnet own : UInt32) : Prop where
  ge : 0x0a400000 ≤ subnet.toNat
  lt : subnet.toNat < 0x0a800000
  aligned : subnet.toNat % 256 = 0
  host : subnet.toNat < own.toNat ∧ own.toNat < subnet.toNat + 255

theorem placed_of_validPeerState {s : NetworkPeerState} (h : validPeerState s) :
    s.prefixLength = 24 ∧ Placed s.subnetAddress s.ownAddress := by
  simp only [validPeerState, hostAddress, Bool.and_eq_true, decide_eq_true_eq, UInt32.lt_iff_toNat_lt,
    UInt32.le_iff_toNat_le, ← UInt32.toNat_inj] at h
  obtain ⟨⟨⟨⟨⟨⟨⟨⟨⟨⟨-, hleading⟩, -⟩, hge⟩, hlt⟩, haligned⟩, hhost⟩, -⟩, -⟩, -⟩, -⟩ := h
  have hlt' : s.subnetAddress.toNat < 0x0a800000 := hlt
  have hadd : (s.subnetAddress + 255).toNat = s.subnetAddress.toNat + 255 := by
    rw [UInt32.toNat_add]
    exact Nat.mod_eq_of_lt (by change _ + 255 < _; omega)
  exact ⟨hleading, hge, hlt', by simpa using haligned, hhost.1, by rw [← hadd]; exact hhost.2⟩

theorem Placed.not_fanout (h : Placed subnet address) : isIpv4FanoutDestination address subnet 24 = false := by
  obtain ⟨hge, hlt, haligned, hhost⟩ := h
  unfold isIpv4FanoutDestination
  split
  · rfl
  · simp only [Bool.or_eq_false_iff, decide_eq_false_iff_not]
    refine ⟨⟨?_, ?_⟩, ?_⟩
    · rintro rfl
      exact absurd hhost.2 (by have : (0xffffffff : UInt32).toNat = 0xffffffff := rfl; omega)
    · rw [Bool.eq_false_iff]
      intro hm
      have hb := (isIpv4ScopedMulticast_bounds hm).1
      omega
    · intro heq
      have hb := broadcast_bounds haligned
      rw [← heq] at hb
      omega

/-- The header of a packet to a host or a fan-out address of the subnet is valid. -/
theorem Placed.header_destination (h : Placed subnet address)
    (hdest : isIpv4FanoutDestination destination subnet 24 ∨ isIpv4Host destination subnet 24) :
    ¬ (0xf0000000 ≤ destination ∧ destination ≠ 0xffffffff) := by
  obtain ⟨hge, hlt, haligned, hhost⟩ := h
  rintro ⟨hle, hne⟩
  have hle' : 0xf0000000 ≤ destination.toNat := hle
  rcases hdest with hfanout | hdest
  · unfold isIpv4FanoutDestination at hfanout
    split at hfanout
    · cases hfanout
    · simp only [Bool.or_eq_true, decide_eq_true_eq] at hfanout
      rcases hfanout with (hall | hm) | hbroadcast
      · exact hne hall
      · have hb := (isIpv4ScopedMulticast_bounds hm).2
        omega
      · have hb := broadcast_bounds haligned
        rw [← hbroadcast] at hb
        omega
  · simp only [isIpv4Host, Bool.and_eq_true, decide_eq_true_eq, UInt32.lt_iff_toNat_lt] at hdest
    have hb : destination.toNat < 0xe0000000 := hdest.1.2
    omega

end

namespace NetworkPacketCipher
variable {crypto : PacketCrypto} {c c' : NetworkPacketCipher}

/-- The receivers and keys of a cipher are those of its network, its epoch and its peers' sessions. -/
structure Wf (crypto : PacketCrypto) (c : NetworkPacketCipher) : Prop where
  network : c.networkId ≠ 0
  epoch : c.keyEpoch ≠ 0
  placed : c.prefixLength ≠ 0 → c.prefixLength = 24 ∧ Placed c.subnetAddress c.ownIpv4Address
  peers : ∀ {d r}, c.peers.lookup d = some r → c.prefixLength = 24 ∧
    r.encryptionKey = deriveSenderKey crypto c.networkKey c.networkId c.keyEpoch d r.sessionPublicKey
  outgoing : c.outgoingKey =
    deriveSenderKey crypto c.networkKey c.networkId c.keyEpoch c.ownDeviceId c.ownSessionPublicKey

/-- What no operation of a cipher changes. -/
structure SameIdentity (c c' : NetworkPacketCipher) : Prop where
  networkId : c'.networkId = c.networkId
  keyEpoch : c'.keyEpoch = c.keyEpoch
  networkKey : c'.networkKey = c.networkKey
  ownDeviceId : c'.ownDeviceId = c.ownDeviceId
  ownSessionPublicKey : c'.ownSessionPublicKey = c.ownSessionPublicKey
  ownIpv4Address : c'.ownIpv4Address = c.ownIpv4Address
  outgoingKey : c'.outgoingKey = c.outgoingKey
  outgoingNoncePrefix : c'.outgoingNoncePrefix = c.outgoingNoncePrefix

theorem SameIdentity.refl (c : NetworkPacketCipher) : SameIdentity c c := ⟨rfl, rfl, rfl, rfl, rfl, rfl, rfl, rfl⟩

theorem SameIdentity.trans {c'' : NetworkPacketCipher} (h : SameIdentity c c') (h' : SameIdentity c' c'') :
    SameIdentity c c'' where
  networkId := h'.networkId.trans h.networkId
  keyEpoch := h'.keyEpoch.trans h.keyEpoch
  networkKey := h'.networkKey.trans h.networkKey
  ownDeviceId := h'.ownDeviceId.trans h.ownDeviceId
  ownSessionPublicKey := h'.ownSessionPublicKey.trans h.ownSessionPublicKey
  ownIpv4Address := h'.ownIpv4Address.trans h.ownIpv4Address
  outgoingKey := h'.outgoingKey.trans h.outgoingKey
  outgoingNoncePrefix := h'.outgoingNoncePrefix.trans h.outgoingNoncePrefix

/-! ## The constructor and the peers -/

theorem make_ok {noncePrefix : BitVec 64} {n : NetworkId} {e : UInt64} {k : NetworkKey} {d : DeviceId}
    {key : SignedDeviceKey} {a : UInt32} (h : make crypto noncePrefix n e k d key a = .ok c) :
    c.Wf crypto ∧ c.nextSequence = 0 ∧ c.peers = ∅ := by
  simp only [make, bind_eq_ok, check_eq_ok, Except.ok.injEq, exists_const] at h
  obtain ⟨hvalid, rfl⟩ := h
  rw [not_or, not_or] at hvalid
  refine ⟨⟨hvalid.1, hvalid.2.1, ?_, ?_, rfl⟩, rfl, rfl⟩
  · intro h0
    exact absurd rfl h0
  · intro d r h0
    cases h0

/-- A peer gets a receiver: it has a key, and the policy allows it. -/
def Eligible (c : NetworkPacketCipher) (policy : Option NetworkPolicy) (peer : NetworkPeer) (key : SignedDeviceKey) :
    Prop :=
  peer.signedKey = some key ∧ policy.all fun p => policyAllows p c.ownDeviceId peer.deviceId

/-- The list has such a peer. -/
def Lists (c : NetworkPacketCipher) (policy : Option NetworkPolicy) (peers : List NetworkPeer) (peer : NetworkPeer)
    (key : SignedDeviceKey) : Prop := peer ∈ peers ∧ c.Eligible policy peer key

theorem lists_cons {policy : Option NetworkPolicy} {peers : List NetworkPeer} {peer other : NetworkPeer}
    {key : SignedDeviceKey} : c.Lists policy (peer :: peers) other key ↔
      (other = peer ∧ c.Eligible policy other key) ∨ c.Lists policy peers other key := by
  simp only [Lists, List.mem_cons, or_and_right]

theorem Lists.congr {policy : Option NetworkPolicy} {peers : List NetworkPeer} {peer : NetworkPeer} {key : SignedDeviceKey}
    (h : c.Lists policy peers peer key) (hs : SameIdentity c c') : c'.Lists policy peers peer key := by
  obtain ⟨hmem, hkey, hallowed⟩ := h
  refine ⟨hmem, hkey, ?_⟩
  rw [hs.ownDeviceId]
  exact hallowed

/-- The receivers after `update_peers`: one for each peer listed. -/
theorem receivers_ok {policy : Option NetworkPolicy} {peers : List NetworkPeer} {updated result : Map DeviceId PeerReceiver}
    (hnodup : (peers.map (·.deviceId)).Nodup) (hnew : ∀ peer ∈ peers, peer.deviceId ∉ updated)
    (h : c.receivers crypto policy updated peers = .ok result) (d : DeviceId) (r : PeerReceiver) :
    result.lookup d = some r ↔ updated.lookup d = some r ∨
      ∃ peer key, c.Lists policy peers peer key ∧ peer.deviceId = d ∧ r = c.receiverFor crypto policy peer key := by
  induction peers generalizing updated with
  | nil =>
    cases h
    simp [Lists]
  | cons peer peers ih =>
    rw [List.map_cons, List.nodup_cons] at hnodup
    have hrest : ∀ other ∈ peers, other.deviceId ∉ updated := fun other ho => hnew other (by simp [ho])
    simp only [lists_cons, or_and_right, exists_or]
    rw [receivers] at h
    -- the peer is passed over, passed over by the policy, or gets a receiver
    split at h
    · rename_i hkey
      rw [ih hnodup.2 hrest h]
      simp [Eligible, hkey]
    · rename_i key hkey
      split at h
      · rename_i hdenied
        have hnot : ¬ (policy.all fun p => policyAllows p c.ownDeviceId peer.deviceId) = true := by
          cases policy <;> simp_all
        rw [ih hnodup.2 hrest h]
        simp [Eligible, hnot]
      · rename_i hallowed
        have hall : (policy.all fun p => policyAllows p c.ownDeviceId peer.deviceId) = true := by
          cases policy <;> simp_all
        simp only [bind_eq_ok, check_eq_ok, exists_const, if_neg (hnew peer (by simp))] at h
        have hnew' : ∀ other ∈ peers, other.deviceId ∉ updated.insert peer.deviceId (c.receiverFor crypto policy peer key) := by
          intro other ho hmem
          rw [AList.mem_insert] at hmem
          rcases hmem with heq | hmem
          · exact hnodup.1 (heq ▸ List.mem_map_of_mem ho)
          · exact hrest other ho hmem
        rw [ih hnodup.2 hnew' h.2, Map.lookup_insert]
        have hfirst : (∃ other key', (other = peer ∧ c.Eligible policy other key') ∧ other.deviceId = d ∧
            r = c.receiverFor crypto policy other key') ↔
            peer.deviceId = d ∧ r = c.receiverFor crypto policy peer key := by
          simp [Eligible, hkey, hall]
        rw [hfirst, ← or_assoc]
        refine or_congr_left ?_
        have hfresh : updated.lookup peer.deviceId = none := AList.lookup_eq_none.2 (hnew peer (by simp))
        split
        · rename_i heq
          rw [heq, hfresh]
          simp [eq_comm]
        · rename_i hne
          simp [Ne.symm hne]

/-- What a successful `update_peers` does. -/
structure Updated (crypto : PacketCrypto) (c : NetworkPacketCipher) (state : NetworkPeerState) (c' : NetworkPacketCipher) :
    Prop where
  same : SameIdentity c c'
  sequence : c'.nextSequence = c.nextSequence
  subnet : c'.subnetAddress = state.subnetAddress
  prefixed : c'.prefixLength = 24
  placed : Placed c'.subnetAddress c'.ownIpv4Address
  lookup : ∀ d r, c'.peers.lookup d = some r ↔ ∃ peer key, c.Lists state.policy state.peers peer key ∧
    peer.deviceId = d ∧ r = c.receiverFor crypto state.policy peer key

theorem updatePeers_ok {state : NetworkPeerState} (h : c.updatePeers crypto state = .ok c') : Updated crypto c state c' := by
  simp only [updatePeers, requirePeerState, bind_eq_ok, check_eq_ok, Except.ok.injEq, exists_const] at h
  obtain ⟨hmatch, -, ⟨hvalid, -⟩, peers, hpeers, rfl⟩ := h
  obtain ⟨hleading, hplaced⟩ := placed_of_validPeerState hvalid
  have hown : state.ownAddress = c.ownIpv4Address := by
    by_contra hne
    exact hmatch (.inr (.inr hne))
  have hnodup : (state.peers.map (·.deviceId)).Nodup := by
    simp only [validPeerState, Bool.and_eq_true, decide_eq_true_eq] at hvalid
    exact hvalid.1.2
  refine ⟨⟨rfl, rfl, rfl, rfl, rfl, rfl, rfl, rfl⟩, rfl, rfl, hleading, hown ▸ hplaced, fun d r => ?_⟩
  rw [receivers_ok hnodup (by simp) hpeers]
  simp

theorem encryptionKey_receiverFor (hw : c.Wf crypto) (policy : Option NetworkPolicy) (peer : NetworkPeer)
    (key : SignedDeviceKey) : (c.receiverFor crypto policy peer key).encryptionKey =
      deriveSenderKey crypto c.networkKey c.networkId c.keyEpoch peer.deviceId
        (c.receiverFor crypto policy peer key).sessionPublicKey := by
  unfold receiverFor
  dsimp only
  split
  · rfl
  · rename_i previous hprevious
    split
    · exact (hw.peers hprevious).2
    · rfl

theorem Updated.wf {state : NetworkPeerState} (h : Updated crypto c state c') (hw : c.Wf crypto) : c'.Wf crypto where
  network := h.same.networkId ▸ hw.network
  epoch := h.same.keyEpoch ▸ hw.epoch
  placed := fun _ => ⟨h.prefixed, h.placed⟩
  peers := by
    intro d r hr
    obtain ⟨peer, key, -, rfl, rfl⟩ := (h.lookup d r).1 hr
    rw [h.same.networkKey, h.same.networkId, h.same.keyEpoch]
    exact ⟨h.prefixed, encryptionKey_receiverFor hw _ _ _⟩
  outgoing := by
    rw [h.same.outgoingKey, h.same.networkKey, h.same.networkId, h.same.keyEpoch, h.same.ownDeviceId,
      h.same.ownSessionPublicKey]
    exact hw.outgoing

/-! ## Encryption -/

/-- `p` is `plaintext`, encrypted by the cipher while it held the subnet. -/
structure Sealed (crypto : PacketCrypto) (a : NetworkPacketCipher) (subnet : UInt32) (prefixLength : UInt8)
    (plaintext : Bytes) (p : EncryptedNetworkPacket) : Prop where
  networkId : p.networkId = a.networkId
  keyEpoch : p.keyEpoch = a.keyEpoch
  valid : validPacket p
  nonce : p.nonce = a.outgoingNoncePrefix ++ p.sequence.toBitVec
  addresses : ipv4Addresses plaintext = .ok (a.ownIpv4Address, p.destinationIpv4)
  ttl : isIpv4FanoutDestination p.destinationIpv4 subnet prefixLength → byteAt plaintext 8 ≠ 0
  opens : ∀ aad, authenticatedData p a.ownDeviceId a.ownSessionPublicKey a.ownIpv4Address = .ok aad →
    crypto.aesGcmDecrypt a.outgoingKey p.nonce aad p.ciphertext p.tag = some plaintext

theorem Sealed.prefixOfNonce {subnet : UInt32} {prefixLength : UInt8} {plaintext : Bytes} {p : EncryptedNetworkPacket}
    (h : Sealed crypto c subnet prefixLength plaintext p) : p.prefixOfNonce = c.outgoingNoncePrefix := by
  rw [EncryptedNetworkPacket.prefixOfNonce, h.nonce]
  exact BitVec.extractLsb'_append_eq_left

theorem toNat_append_mod (x : BitVec 64) (y : BitVec 32) : (x ++ y : BitVec 96).toNat % 2 ^ 32 = y.toNat := by
  rw [BitVec.toNat_append, ← Nat.shiftLeft_add_eq_or_of_lt y.isLt, Nat.shiftLeft_eq]
  omega

/-- What `encrypt` has checked when it takes a sequence number. -/
theorem checkOutgoing_ok {packet : Bytes} {destination : UInt32} (h : c.checkOutgoing packet = .ok destination) :
    ipv4Addresses packet = .ok (c.ownIpv4Address, destination) ∧ destination ≠ 0 ∧
    (isIpv4FanoutDestination destination c.subnetAddress c.prefixLength ∨
      isIpv4Host destination c.subnetAddress c.prefixLength) ∧
    (isIpv4FanoutDestination destination c.subnetAddress c.prefixLength → byteAt packet 8 ≠ 0) ∧
    c.nextSequence ≠ 0xffffffff := by
  simp only [checkOutgoing, bind_eq_ok, check_eq_ok, Except.ok.injEq, exists_const, Prod.exists] at h
  obtain ⟨source, destination, haddresses, hends, -, hnetwork, hsequence, rfl⟩ := h
  simp only [not_or, not_not, not_and] at hends hnetwork
  refine ⟨?_, hends.2.1, ?_, hnetwork.2, hsequence⟩
  · rw [haddresses, hends.1]
  · exact or_iff_not_imp_left.2 hnetwork.1

theorem size_of_ipv4Addresses {packet : Bytes} {addresses : UInt32 × UInt32} (h : ipv4Addresses packet = .ok addresses) :
    20 ≤ packet.length ∧ packet.length ≤ 65535 := by
  simp only [ipv4Addresses, bind_eq_ok, check_eq_ok, exists_const] at h
  obtain ⟨hsize, -⟩ := h
  simp only [not_or, not_lt] at hsize
  exact ⟨hsize.1, hsize.2.1⟩

/-- The associated data depend on the length of the ciphertext only. -/
theorem authenticatedData_congr {p : EncryptedNetworkPacket} {ciphertext : Bytes} (tag : BitVec 128)
    (h : ciphertext.length = p.ciphertext.length) (sender : DeviceId) (session : EncryptionPublicKey) (source : UInt32) :
    authenticatedData { p with ciphertext, tag } sender session source = authenticatedData p sender session source := by
  have hvalid : validPacket { p with ciphertext, tag } = validPacket p := by simp only [validPacket, h]
  have hheader : encryptedPacketHeader { p with ciphertext, tag } = encryptedPacketHeader p := by
    simp only [encryptedPacketHeader, h]
  rw [authenticatedData, authenticatedData, requirePacket, requirePacket, hvalid, hheader]

theorem validPacket_iff {p : EncryptedNetworkPacket} : validPacket p ↔
    p.networkId ≠ 0 ∧ p.destinationIpv4 ≠ 0 ∧ ¬ (0xf0000000 ≤ p.destinationIpv4 ∧ p.destinationIpv4 ≠ 0xffffffff) ∧
    p.keyEpoch ≠ 0 ∧ p.sequence ≠ 0 ∧ 20 ≤ p.ciphertext.length ∧ p.ciphertext.length ≤ 65535 ∧
    p.nonce.toNat % 2 ^ 32 = p.sequence.toNat := by
  simp only [validPacket, Bool.and_eq_true, decide_eq_true_eq, Bool.not_eq_true', Bool.and_eq_false_iff,
    decide_eq_false_iff_not, not_and_or, and_assoc]

theorem validPacket_blank (hw : c.Wf crypto) {packet : Bytes} {destination : UInt32}
    (h : c.checkOutgoing packet = .ok destination) :
    validPacket (c.blankPacket destination (c.nextSequence + 1) packet.length) := by
  obtain ⟨haddresses, hzero, hdest, -, hsequence⟩ := checkOutgoing_ok h
  obtain ⟨hmin, hmax⟩ := size_of_ipv4Addresses haddresses
  have hleading : c.prefixLength ≠ 0 := by
    intro h0
    rw [h0] at hdest
    simp [isIpv4FanoutDestination, isIpv4Host, isIpv4Subnet] at hdest
  obtain ⟨h24, hplaced⟩ := hw.placed hleading
  rw [h24] at hdest
  have hheader := hplaced.header_destination hdest
  have hnonzero : c.nextSequence + 1 ≠ 0 := by
    intro h0
    apply hsequence
    rw [← UInt32.toNat_inj] at h0 ⊢
    rw [UInt32.toNat_add] at h0
    have hlt := c.nextSequence.toNat_lt
    change (_ + 1) % 2 ^ 32 = 0 at h0
    change _ = 2 ^ 32 - 1
    omega
  refine validPacket_iff.2 ⟨hw.network, hzero, hheader, hw.epoch, hnonzero, ?_, ?_, ?_⟩
  · simpa [blankPacket] using hmin
  · simpa [blankPacket] using hmax
  · exact toNat_append_mod _ _

/-- `encrypt` throws and keeps the cipher, or takes the next sequence number. -/
theorem encrypt_cases (hl : crypto.Lawful) (hw : c.Wf crypto) (packet : Bytes) :
    (∃ e, encrypt crypto packet c = (.error e, c)) ∨
    ∃ p, encrypt crypto packet c = (.ok p, { c with nextSequence := c.nextSequence + 1 }) ∧
      p.sequence = c.nextSequence + 1 ∧ c.nextSequence ≠ 0xffffffff ∧
      Sealed crypto c c.subnetAddress c.prefixLength packet p := by
  cases hcheck : c.checkOutgoing packet with
  | error e =>
    left
    refine ⟨e, ?_⟩
    unfold encrypt
    simp only [Bind.bind, Action.bind, Action.query, hcheck]
  | ok destination =>
    right
    obtain ⟨haddresses, hzero, hdest, httl, hsequence⟩ := checkOutgoing_ok hcheck
    have hvalid := validPacket_blank hw hcheck
    let blank := c.blankPacket destination (c.nextSequence + 1) packet.length
    obtain ⟨aad, haad⟩ : ∃ aad, authenticatedData blank c.ownDeviceId c.ownSessionPublicKey c.ownIpv4Address = .ok aad := by
      rw [authenticatedData, requirePacket, check_of hvalid]
      exact ⟨_, rfl⟩
    have hlength := hl.length_encrypt c.outgoingKey blank.nonce aad packet
    have hsame : (crypto.aesGcmEncrypt c.outgoingKey blank.nonce aad packet).1.length = blank.ciphertext.length := by
      rw [hlength]
      simp [blank, blankPacket]
    refine ⟨{ blank with
      ciphertext := (crypto.aesGcmEncrypt c.outgoingKey blank.nonce aad packet).1
      tag := (crypto.aesGcmEncrypt c.outgoingKey blank.nonce aad packet).2 }, ?_, rfl, hsequence, ?_⟩
    · unfold encrypt
      simp only [Bind.bind, Action.bind, Action.query, Action.update, Action.lift, hcheck]
      have hblank : ({ c with nextSequence := c.nextSequence + 1 } : NetworkPacketCipher).blankPacket destination
          (c.nextSequence + 1) packet.length = blank := rfl
      simp only [hblank, haad]
      rfl
    · refine ⟨rfl, rfl, ?_, rfl, haddresses, httl, ?_⟩
      · rw [← hvalid]
        simp only [validPacket, hsame, blank]
      · intro aad' haad'
        rw [authenticatedData_congr _ hsame, haad] at haad'
        cases haad'
        exact hl.decrypt_encrypt _ _ _ _

/-! ## Decryption -/

/-- `decrypt` throws and keeps the cipher, or marks the packet in the window of its sender. -/
theorem decrypt_cases (crypto : PacketCrypto) (c : NetworkPacketCipher) (p : EncryptedNetworkPacket) (sender : DeviceId) :
    (∃ e, c.opened crypto p sender = .error e ∧ decrypt crypto p sender c = (.error e, c)) ∨
    ∃ r plaintext, c.opened crypto p sender = .ok (r, plaintext) ∧
      decrypt crypto p sender c = (.ok plaintext, { c with peers := c.peers.insert sender (r.record p) }) := by
  unfold decrypt
  cases h : c.opened crypto p sender with
  | error e => exact .inl ⟨e, rfl, rfl⟩
  | ok r => exact .inr ⟨r.1, r.2, rfl, rfl⟩

/-- What `decrypt` has checked when it accepts a packet. -/
theorem opened_ok {p : EncryptedNetworkPacket} {sender : DeviceId} {r : PeerReceiver} {plaintext : Bytes}
    (h : c.opened crypto p sender = .ok (r, plaintext)) :
    validPacket p ∧ c.peers.lookup sender = some r ∧ r.refuses p = false := by
  simp only [opened, requirePacket, bind_eq_ok, check_eq_ok, exists_const] at h
  obtain ⟨hvalid, -, -, h⟩ := h
  refine ⟨hvalid, ?_⟩
  split at h
  · cases h
  · rename_i receiver hlookup
    simp only [bind_eq_ok, check_eq_ok, exists_const] at h
    obtain ⟨-, hwindow, aad, -, h⟩ := h
    split at h
    · cases h
    · simp only [bind_eq_ok, check_eq_ok, exists_const, Except.ok.injEq, Prod.mk.injEq] at h
      obtain ⟨-, rfl, -⟩ := h
      exact ⟨hlookup, by simpa using hwindow⟩

end NetworkPacketCipher

end LanLink
