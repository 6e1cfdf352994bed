import LanLink.Auth.CipherState
/-!
# What a packet cipher lets through

The peers of a state with good keys become receivers, and a packet to a host of
the network is refused only by the policy: in a managed network its destination
must be the address of a receiver.
-/
open LanLink.Lib

namespace LanLink

/-! ## Host addresses -/

theorem Placed.host_address {subnet address : UInt32} (h : Placed subnet address) : isIpv4Host address subnet 24 = true := by
  obtain ⟨hge, hlt, haligned, hhost⟩ := h
  have hmask (x : UInt32) : (x &&& subnetMask 24).toNat = x.toNat / 256 * 256 :=
    toNat_and_subnetMask (p := 24) (by decide) (by decide) x
  have hsubnet : isIpv4Subnet subnet 24 = true := by
    simp only [isIpv4Subnet, Bool.and_eq_true, decide_eq_true_eq]
    refine ⟨⟨by decide, by decide⟩, ?_⟩
    rw [← UInt32.toNat_inj, UInt32.toNat_and, show (~~~(subnetMask 24)).toNat = 2 ^ 8 - 1 by decide,
      Nat.and_two_pow_sub_one_eq_mod]
    exact haligned
  simp only [isIpv4Host, hsubnet, Bool.true_and, Bool.and_eq_true, decide_eq_true_eq, ne_eq, ← UInt32.toNat_inj, hmask,
    UInt32.lt_iff_toNat_lt, broadcast_bounds haligned]
  refine ⟨⟨⟨?_, ?_⟩, ?_⟩, ?_⟩
  · omega
  · omega
  · change address.toNat < 0xe0000000
    omega
  · omega

theorem Placed.hostAddress {subnet address : UInt32} (h : Placed subnet address) : hostAddress subnet address = true := by
  obtain ⟨hge, hlt, haligned, hhost⟩ := h
  have hadd : (subnet + 255).toNat = subnet.toNat + 255 := by
    rw [UInt32.toNat_add]
    exact Nat.mod_eq_of_lt (by change _ + 255 < _; omega)
  simp only [LanLink.hostAddress, Bool.and_eq_true, decide_eq_true_eq, UInt32.lt_iff_toNat_lt, hadd]
  exact hhost

namespace NetworkPacketCipher
variable {crypto : PacketCrypto} {c c' : NetworkPacketCipher} {packet : Bytes}

/-! ## Receivers -/

/-- The peers of a state with good keys all get receivers. -/
theorem receivers_succeeds (policy : Option NetworkPolicy)
    {peers : List NetworkPeer} (h : ∀ peer ∈ peers, ∀ key, peer.signedKey = some key →
      peer.deviceId ≠ c.ownDeviceId ∧ verifySignedDeviceKey crypto.toCrypto key peer.deviceId)
    (updated : Map DeviceId PeerReceiver) : ∃ result, c.receivers crypto policy updated peers = .ok result := by
  induction peers generalizing updated with
  | nil => exact ⟨updated, rfl⟩
  | cons peer peers ih =>
    have hrest := ih fun other hother => h other (List.mem_cons_of_mem _ hother)
    rw [receivers]
    cases hkey : peer.signedKey with
    | none => exact hrest updated
    | some key =>
      obtain ⟨hne, hverified⟩ := h peer List.mem_cons_self key hkey
      dsimp only
      split
      · exact hrest updated
      · rw [check_of (by simp [hne, hverified]), ok_bind]
        exact hrest _

theorem ipv4Address_receiverFor (policy : Option NetworkPolicy) (peer : NetworkPeer) (key : SignedDeviceKey) :
    (c.receiverFor crypto policy peer key).ipv4Address = peer.ipv4Address := by
  unfold receiverFor
  dsimp only
  split
  · rfl
  · split
    · rename_i hsame
      exact hsame.2
    · rfl

theorem managed_updatePeers {state : NetworkPeerState} (h : c.updatePeers crypto state = .ok c') :
    c'.managed = state.policy.any (·.managed) := by
  simp only [updatePeers, bind_eq_ok, check_eq_ok, Except.ok.injEq] at h
  obtain ⟨-, -, -, -, peers, -, rfl⟩ := h
  rfl

/-! ## Packets -/

/-- The cipher encrypts the packet, or would if it had a sequence number left. -/
def Admits (crypto : PacketCrypto) (c : NetworkPacketCipher) (packet : Bytes) : Prop :=
  (∃ p, (encrypt crypto packet c).1 = .ok p) ∨ (c.nextSequence = 0xffffffff ∧
    (encrypt crypto packet c).1 = .error (.overflowError "virtual packet sequence exhausted"))

/-- The device is a sender whose packets the cipher decrypts. -/
def Knows (c : NetworkPacketCipher) (d : DeviceId) : Prop := d ∈ c.peers

def AcceptsFanout (c : NetworkPacketCipher) (d : DeviceId) : Prop := ∃ r, c.peers.lookup d = some r ∧ r.fanoutAllowed = true

theorem encrypt_of_error (crypto : PacketCrypto) {e : Exn} (h : c.checkOutgoing packet = .error e) : (encrypt crypto packet c).1 = .error e := by
  unfold encrypt
  simp only [Bind.bind, Action.bind, Action.query, h]

theorem encrypt_of_ok {destination : UInt32} (hw : c.Wf crypto) (h : c.checkOutgoing packet = .ok destination) :
    ∃ p, (encrypt crypto packet c).1 = .ok p := by
  obtain ⟨aad, haad⟩ : ∃ aad, authenticatedData (c.blankPacket destination (c.nextSequence + 1) packet.length) c.ownDeviceId
      c.ownSessionPublicKey c.ownIpv4Address = .ok aad := by
    rw [authenticatedData, requirePacket, check_of (validPacket_blank hw h)]
    exact ⟨_, rfl⟩
  have hblank : ({ c with nextSequence := c.nextSequence + 1 } : NetworkPacketCipher).blankPacket destination
      (c.nextSequence + 1) packet.length = c.blankPacket destination (c.nextSequence + 1) packet.length := rfl
  unfold encrypt
  simp only [Bind.bind, Action.bind, Action.query, Action.update, Action.lift, h, hblank, haad]
  exact ⟨_, rfl⟩

/-- A packet to a host of the network is refused by the policy alone. -/
theorem admits_iff (hw : c.Wf crypto) {destination : UInt32} (haddresses : ipv4Addresses packet = .ok (c.ownIpv4Address, destination))
    (hlength : c.prefixLength = 24) (hplaced : Placed c.subnetAddress destination) (hne : destination ≠ c.ownIpv4Address) :
    c.Admits crypto packet ↔ (c.managed = true → ∃ d r, c.peers.lookup d = some r ∧ r.ipv4Address = destination) := by
  have hzero : destination ≠ 0 := by
    rintro rfl
    exact absurd hplaced.host.1 (Nat.not_lt_zero _)
  have hfanout := hplaced.not_fanout
  have hhost := hplaced.host_address
  have hpeer : c.noPeer (fun r => r.ipv4Address = destination) = false ↔
      ∃ d r, c.peers.lookup d = some r ∧ r.ipv4Address = destination := by
    simp only [noPeer, List.all_eq_false, Prod.exists, Map.mem_rows, Bool.not_eq_true', decide_eq_false_iff_not, not_not]
  rw [← hpeer]
  have hcheck : c.checkOutgoing packet = if c.managed ∧ c.noPeer (fun r => r.ipv4Address = destination) then
      .error (.invalidArgument "network policy denies this destination")
      else if c.nextSequence = 0xffffffff then .error (.overflowError "virtual packet sequence exhausted")
      else .ok destination := by
    rw [checkOutgoing, haddresses, ok_bind]
    dsimp only
    rw [check_of (by simp [hzero, hne]), ok_bind, hlength, hfanout]
    by_cases hdenied : c.managed ∧ c.noPeer (fun r => r.ipv4Address = destination)
    · rw [if_pos hdenied]
      simp [check, hdenied.1, hdenied.2]
    · rw [if_neg hdenied, check_of (by simpa using hdenied), ok_bind, check_of (by simp [hhost]), ok_bind]
      by_cases hlast : c.nextSequence = 0xffffffff
      · rw [if_pos hlast]
        simp [check, hlast]
      · rw [if_neg hlast, check_of hlast, ok_bind]
  constructor
  · intro hadmits hmanaged
    by_contra hnone
    rw [Bool.not_eq_false] at hnone
    rw [if_pos ⟨hmanaged, hnone⟩] at hcheck
    have herror := encrypt_of_error crypto hcheck
    rcases hadmits with ⟨p, hp⟩ | ⟨-, hlast⟩
    · rw [herror] at hp
      cases hp
    · rw [herror] at hlast
      cases hlast
  · intro hallowed
    rw [if_neg (by rintro ⟨hmanaged, hnone⟩; rw [hallowed hmanaged] at hnone; cases hnone)] at hcheck
    by_cases hlast : c.nextSequence = 0xffffffff
    · rw [if_pos hlast] at hcheck
      exact .inr ⟨hlast, encrypt_of_error crypto hcheck⟩
    · rw [if_neg hlast] at hcheck
      exact .inl (encrypt_of_ok hw hcheck)

end NetworkPacketCipher

end LanLink
