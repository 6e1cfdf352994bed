import LanLink.Transport.Replays
/-!
# Two bridges in one network

What one bridge sends into a network comes to another bridge of the network
once and in order, or is lost on the way. The keys and addresses of the network
and of both devices never change. The sender may lose the network and get it
back; its cipher then starts over with a new nonce prefix, which the receiver,
bound to the first prefix it saw, refuses.
-/
open LanLink.Lib

namespace LanLink

/-! ## Ciphers along a run of calls -/

namespace NetworkPacketCipher
variable {crypto : PacketCrypto} {a c : NetworkPacketCipher} {r : PeerReceiver} {seen settled : Finset ℕ}

theorem nextSequence_run (hl : crypto.Lawful) (hw : c.Wf crypto) (ops : List CipherOp) :
    (c.run crypto ops).nextSequence.toNat = c.nextSequence.toNat + (c.sent crypto ops).length := by
  induction ops generalizing c with
  | nil => rfl
  | cons op ops ih =>
    have htail : ((c.step crypto op).run crypto ops).nextSequence.toNat = _ := ih (wf_step hl hw op)
    rcases sends_cases hl hw op with ⟨hnone, hnext⟩ | ⟨x, hsome, -, -, hnext⟩
    · rw [hnext] at htail
      simpa [NetworkPacketCipher.run, sent, hnone] using htail
    · rw [hnext] at htail
      simp only [NetworkPacketCipher.run, sent, hsome, List.foldl_cons, Option.toList_some, List.length_append,
        List.length_singleton] at htail ⊢
      omega

/-- The cipher sits on the `/24` at `subnet`. -/
def OnSubnet (subnet : UInt32) (c : NetworkPacketCipher) : Prop := c.subnetAddress = subnet ∧ c.prefixLength = 24

/-- The call does not move the cipher to another subnet. -/
def StaysOn (subnet : UInt32) (op : CipherOp) : Prop := ∀ state, op = .updatePeers state → state.subnetAddress = subnet

theorem OnSubnet.step {subnet : UInt32} (h : c.OnSubnet subnet) (hl : crypto.Lawful) (hw : c.Wf crypto) {op : CipherOp}
    (hop : StaysOn subnet op) : (c.step crypto op).OnSubnet subnet := by
  cases op with
  | updatePeers state =>
    rcases step_updatePeers crypto c state with hstep | hstep
    · rw [hstep]
      exact h
    · exact ⟨hstep.subnet.trans (hop state rfl), hstep.prefixed⟩
  | encrypt packet =>
    rcases encrypt_cases hl hw packet with ⟨e, heq⟩ | ⟨p, heq, -⟩
    · simp only [NetworkPacketCipher.step, heq]
      exact h
    · simp only [NetworkPacketCipher.step, heq]
      exact h
  | decrypt p sender =>
    rcases decrypt_cases crypto c p sender with ⟨e, -, heq⟩ | ⟨r, plaintext, -, heq⟩
    · simp only [NetworkPacketCipher.step, heq]
      exact h
    · simp only [NetworkPacketCipher.step, heq]
      exact h

theorem OnSubnet.run {subnet : UInt32} (h : c.OnSubnet subnet) (hl : crypto.Lawful) (hw : c.Wf crypto) {ops : List CipherOp}
    (hops : ∀ op ∈ ops, StaysOn subnet op) : (c.run crypto ops).OnSubnet subnet := by
  induction ops generalizing c with
  | nil => exact h
  | cons op ops ih =>
    exact ih (h.step hl hw (hops op (by simp))) (wf_step hl hw op) fun op' hop' => hops op' (by simp [hop'])

/-- What is sent meanwhile is sent on that subnet. -/
theorem OnSubnet.sent {subnet : UInt32} (h : c.OnSubnet subnet) (hl : crypto.Lawful) (hw : c.Wf crypto) {ops : List CipherOp}
    (hops : ∀ op ∈ ops, StaysOn subnet op) {x : Sent} (hx : x ∈ c.sent crypto ops) :
    x.subnetAddress = subnet ∧ x.prefixLength = 24 := by
  induction ops generalizing c with
  | nil => cases hx
  | cons op ops ih =>
    rw [NetworkPacketCipher.sent, List.mem_append] at hx
    rcases hx with hop | htail
    · cases op with
      | encrypt packet =>
        rw [Option.mem_toList, sends] at hop
        split at hop
        · cases hop
          exact h
        · cases hop
      | updatePeers state => cases hop
      | decrypt p sender => cases hop
    · exact ih (h.step hl hw (hops op (by simp))) (wf_step hl hw op) (fun op' hop' => hops op' (by simp [hop'])) htail

/-- A call that is not about `a`, or keeps the entry for it. -/
def Foreign (a c : NetworkPacketCipher) : CipherOp → Prop
  | .updatePeers state => c.KeepsPeer a state
  | .encrypt _ => True
  | .decrypt _ d => d ≠ a.ownDeviceId

/-- Such calls leave the window for `a` as it is. -/
theorem Linked.foreign (h : Linked a c r seen settled) (hl : crypto.Lawful) (ha : a.Wf crypto) (hc : c.Wf crypto)
    {ops : List CipherOp} (hops : ∀ op ∈ ops, Foreign a c op) : ∃ r', Linked a (c.run crypto ops) r' seen settled := by
  induction ops generalizing c r with
  | nil => exact ⟨r, h⟩
  | cons op ops ih =>
    have hstep : ∃ r', Linked a (c.step crypto op) r' seen settled := by
      have hop := hops op (by simp)
      have hreceives : Receives crypto a [] c op := by
        cases op with
        | updatePeers state => exact hop
        | encrypt packet => trivial
        | decrypt p d => exact fun hd => absurd hd hop
      obtain ⟨r', hr'⟩ := h.step hl ha hc (by simp) hreceives
      have haccepted : c.acceptedBy crypto a.ownDeviceId op = ∅ := by
        cases op with
        | updatePeers state => rfl
        | encrypt packet => rfl
        | decrypt p d =>
          unfold acceptedBy
          exact if_neg fun hd => hop hd.1
      have hdelivered : c.deliveredBy a.ownDeviceId [] op = ∅ := by
        cases op with
        | updatePeers state => rfl
        | encrypt packet => rfl
        | decrypt p d => simp [deliveredBy]
      rw [haccepted, hdelivered, Finset.union_empty, Finset.union_empty] at hr'
      exact ⟨r', hr'⟩
    obtain ⟨r', hr'⟩ := hstep
    refine ih hr' (wf_step hl hc op) fun op' hop' => ?_
    have hforeign := hops op' (by simp [hop'])
    cases op' with
    | updatePeers state =>
      obtain ⟨peer, key, hlists, hrest⟩ := hforeign
      exact ⟨peer, key, hlists.congr (sameIdentity_step hl hc op), hrest⟩
    | encrypt packet => trivial
    | decrypt p d => exact hforeign

end NetworkPacketCipher

/-! ## The link -/

/-- What every snapshot says about the network and the two devices. -/
structure Peering where
  network : NetworkId
  key : NetworkKeySnapshot
  subnet : UInt32
  sender : PacketIdentitySnapshot
  senderAddress : UInt32
  receiver : PacketIdentitySnapshot
  receiverAddress : UInt32

/-- The two bridges and what is between them. -/
structure Link where
  sender : VirtualPacketBridge := {}
  receiver : VirtualPacketBridge
  /-- How often the sender lost the network. -/
  losses : ℕ := 0
  /-- Packets on their way, each with the losses before it was sent. -/
  queue : List (ℕ × EncryptedNetworkPacket) := []
  /-- The losses before each packet delivered so far was sent. -/
  delivered : List ℕ := []

inductive LinkEvent
  | sender (inputs : BridgeInputs) (e : VirtualPacketBridge.BridgeEvent)
  | receiver (inputs : BridgeInputs) (e : VirtualPacketBridge.BridgeEvent)
  | deliver (inputs : BridgeInputs)
  | lose

namespace Peering
open VirtualPacketBridge

variable (P : Peering)

/-- The network as the sender's snapshots have it. -/
def ForSender (identity : PacketIdentitySnapshot) (network : ActiveNetworkPacketState) : Prop :=
  identity = P.sender ∧ network.key = P.key ∧ network.peers.ownAddress = P.senderAddress ∧
    network.peers.subnetAddress = P.subnet

/-- The network as the receiver's snapshots have it: the sender is in it and the policy allows it. -/
def ForReceiver (identity : PacketIdentitySnapshot) (network : ActiveNetworkPacketState) : Prop :=
  identity = P.receiver ∧ network.key = P.key ∧ network.peers.ownAddress = P.receiverAddress ∧
    network.peers.subnetAddress = P.subnet ∧
    ∃ peer ∈ network.peers.peers, peer.deviceId = P.sender.deviceId ∧ peer.ipv4Address = P.senderAddress ∧
      peer.signedKey = some P.sender.signedKey ∧
      network.peers.policy.all fun p => policyAllows p P.receiver.deviceId P.sender.deviceId

/-- The sender may be cleared and may miss the network in a snapshot. -/
def SenderMay : BridgeEvent → Prop
  | .synchronize (some identity) networks =>
    ∀ network ∈ networks, network.peers.networkId = P.network → P.ForSender identity network
  | _ => True

/-- The receiver keeps the network. Packets of the sender come over the link. -/
def ReceiverMay : BridgeEvent → Prop
  | .clear => False
  | .synchronize none _ => False
  | .synchronize (some identity) networks =>
    ∃ network ∈ networks, network.peers.networkId = P.network ∧ P.ForReceiver identity network
  | .inbound delivery => delivery.packet.networkId = P.network → delivery.senderDeviceId ≠ P.sender.deviceId
  | _ => True

/-- The packet is for the receiver: to its address, or to a fan-out address if it takes such packets from the sender. -/
def IsFor (b : VirtualPacketBridge) (p : EncryptedNetworkPacket) : Prop :=
  p.destinationIpv4 = P.receiverAddress ∨
    isIpv4FanoutDestination p.destinationIpv4 P.subnet 24 ∧
      ∃ s r, b.sessions.lookup P.network = some s ∧ s.cipher.peers.lookup P.sender.deviceId = some r ∧ r.fanoutAllowed

def May (l : Link) : LinkEvent → Prop
  | .sender _ e => P.SenderMay e
  | .receiver _ e => P.ReceiverMay e
  | .deliver _ => ∀ e, l.queue.head? = some e → P.IsFor l.receiver e.2
  | .lose => True

variable (crypto : PacketCrypto)

def step (l : Link) : LinkEvent → Link
  | .sender inputs e =>
    let sender := l.sender.step crypto (inputs, e)
    let lost := (l.sender.sessions.lookup P.network).isSome && (sender.sessions.lookup P.network).isNone
    let losses := if lost then l.losses + 1 else l.losses
    { l with
      sender
      losses
      queue := l.queue ++ (sentIn P.network (sender.calls.drop l.sender.calls.length)).map fun p => (losses, p) }
  | .receiver inputs e => { l with receiver := l.receiver.step crypto (inputs, e) }
  | .deliver inputs => match l.queue with
    | [] => l
    | (losses, packet) :: queue =>
      { l with
        receiver := l.receiver.step crypto (inputs, .inbound { senderDeviceId := P.sender.deviceId, packet })
        queue
        delivered := l.delivered ++ [losses] }
  | .lose => { l with queue := l.queue.tail }

/-- The receiver after its first snapshot, and a sender without sessions. -/
def start (inputs : BridgeInputs) (networks : List ActiveNetworkPacketState) : Link :=
  { receiver := ({} : VirtualPacketBridge).step crypto (inputs, .synchronize (some P.receiver) networks) }

/-- The receiver decrypts the packet. -/
def Accepts (b : VirtualPacketBridge) (p : EncryptedNetworkPacket) : Prop :=
  ((b.sessions.lookup P.network).any fun s =>
    (NetworkPacketCipher.decrypt crypto p P.sender.deviceId s.cipher).1.isOk) = true

instance (b : VirtualPacketBridge) (p : EncryptedNetworkPacket) : Decidable (P.Accepts crypto b p) :=
  inferInstanceAs (Decidable (_ = _))

end Peering

end LanLink
