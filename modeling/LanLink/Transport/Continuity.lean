import LanLink.Transport.Link
/-!
# Continuity of a sender

Between two losses of the network a sender goes on with one cipher, whose
packets the receiver takes in order. The invariant relates the packets under way
to that cipher and to the receiver's window.
-/
open LanLink.Lib

namespace LanLink

namespace Peering
open VirtualPacketBridge

variable (crypto : PacketCrypto) (P : Peering)

/-- A cipher of the sender, by its nonce prefix. -/
def cipher (noncePrefix : BitVec 64) : NetworkPacketCipher :=
  { networkId := P.network, keyEpoch := P.key.epoch, networkKey := P.key.key, ownDeviceId := P.sender.deviceId
    ownSessionPublicKey := P.sender.signedKey.encryptionPublicKey, ownIpv4Address := P.senderAddress
    outgoingKey := deriveSenderKey crypto P.key.key P.network P.key.epoch P.sender.deviceId
      P.sender.signedKey.encryptionPublicKey
    outgoingNoncePrefix := noncePrefix }

/-- A session of the sender. -/
structure SenderSession (s : Session) : Prop where
  key : s.key = P.key
  ownSignedKey : s.ownSignedKey = P.sender.signedKey
  ownDeviceId : s.ownDeviceId = P.sender.deviceId
  ownAddress : s.peers.ownAddress = P.senderAddress
  subnet : s.cipher.OnSubnet P.subnet

/-- A session of the receiver. -/
structure ReceiverSession (s : Session) : Prop where
  key : s.key = P.key
  ownSignedKey : s.ownSignedKey = P.receiver.signedKey
  ownDeviceId : s.ownDeviceId = P.receiver.deviceId
  ownAddress : s.peers.ownAddress = P.receiverAddress
  subnet : s.cipher.OnSubnet P.subnet

/-- The packet is one the sender encrypted with this nonce prefix. -/
def Genuine (noncePrefix : BitVec 64) (p : EncryptedNetworkPacket) : Prop :=
  ∃ plaintext, NetworkPacketCipher.Sealed crypto (P.cipher crypto noncePrefix) P.subnet 24 plaintext p

/-- The window of the receiver: it took packets of the sender's cipher of number `losses`, all older than those under way
and than those to come. -/
def Window (l : Link) (prefixes : ℕ → BitVec 64) (s : Session) (losses : ℕ) : Prop :=
  ∃ r seen, NetworkPacketCipher.Linked (P.cipher crypto (prefixes losses)) s.cipher r seen seen ∧
    (l.delivered = [] → seen = ∅) ∧
    (∀ m ∈ seen, ∀ e ∈ l.queue, e.1 = losses → m < e.2.sequence.toNat) ∧
    (losses = l.losses → ∀ m ∈ seen, ∃ t, l.sender.sessions.lookup P.network = some t ∧ m ≤ t.cipher.nextSequence.toNat)

structure Inv (l : Link) (prefixes : ℕ → BitVec 64) : Prop where
  senderWf : l.sender.Wf crypto
  receiverWf : l.receiver.Wf crypto
  sender : ∀ s, l.sender.sessions.lookup P.network = some s →
    P.SenderSession s ∧ s.cipher.outgoingNoncePrefix = prefixes l.losses
  queued : ∀ e ∈ l.queue, e.1 ≤ l.losses ∧ P.Genuine crypto (prefixes e.1) e.2
  ordered : l.queue.Pairwise fun e f => e.1 = f.1 → e.2.sequence.toNat < f.2.sequence.toNat
  current : ∀ e ∈ l.queue, e.1 = l.losses →
    ∃ s, l.sender.sessions.lookup P.network = some s ∧ e.2.sequence.toNat ≤ s.cipher.nextSequence.toNat
  delivered : ∀ t ∈ l.delivered, t ≤ l.losses ∧ (t = l.losses → (l.sender.sessions.lookup P.network).isSome)
  receiver : ∃ s, l.receiver.sessions.lookup P.network = some s ∧ P.ReceiverSession s ∧
    ∀ losses, (∀ t ∈ l.delivered, t = losses) → P.Window crypto l prefixes s losses

variable {crypto} {P} {l : Link} {prefixes : ℕ → BitVec 64}

theorem wf_cipher (hn : P.network ≠ 0) (he : P.key.epoch ≠ 0) (noncePrefix : BitVec 64) :
    (P.cipher crypto noncePrefix).Wf crypto where
  network := hn
  epoch := he
  placed := fun h => absurd rfl h
  peers := fun h => nomatch h
  outgoing := rfl

/-- The cipher of the sender's session is the one of its prefix. -/
theorem SenderSession.same {s : Session} (h : P.SenderSession s) (hw : SessionWf crypto P.network s) :
    NetworkPacketCipher.SameIdentity (P.cipher crypto s.cipher.outgoingNoncePrefix) s.cipher where
  networkId := hw.networkId
  keyEpoch := hw.keyEpoch.trans (congrArg _ h.key)
  networkKey := hw.networkKey.trans (congrArg _ h.key)
  ownDeviceId := hw.ownDeviceId.trans h.ownDeviceId
  ownSessionPublicKey := hw.ownSession.trans (congrArg _ h.ownSignedKey)
  ownIpv4Address := hw.ownAddress.trans h.ownAddress
  outgoingKey := by
    rw [hw.cipher.outgoing, hw.networkId, hw.keyEpoch, hw.networkKey, hw.ownDeviceId, hw.ownSession, h.key, h.ownSignedKey,
      h.ownDeviceId]
    rfl
  outgoingNoncePrefix := rfl

theorem ReceiverSession.nonzero {s : Session} (h : P.ReceiverSession s) (hw : SessionWf crypto P.network s) :
    P.network ≠ 0 ∧ P.key.epoch ≠ 0 := by
  constructor
  · rw [← hw.networkId]
    exact hw.cipher.network
  · rw [← h.key, ← hw.keyEpoch]
    exact hw.cipher.epoch

/-! ## Steps of the receiver -/

theorem keepsSession_of_receiver {s : Session} {identity : PacketIdentitySnapshot} {network : ActiveNetworkPacketState}
    (h : P.ReceiverSession s) (hfor : P.ForReceiver identity network) : keepsSession s identity network := by
  obtain ⟨hidentity, hkey, haddress, -⟩ := hfor
  simp [keepsSession, h.key, h.ownSignedKey, h.ownAddress, hidentity, hkey, haddress]

theorem keepsPeer_of_receiver {s : Session} {identity : PacketIdentitySnapshot} {network : ActiveNetworkPacketState}
    (h : P.ReceiverSession s) (hw : SessionWf crypto P.network s) (hfor : P.ForReceiver identity network)
    (noncePrefix : BitVec 64) : s.cipher.KeepsPeer (P.cipher crypto noncePrefix) network.peers := by
  obtain ⟨-, -, -, -, peer, hpeer, hdevice, haddress, hkey, hallowed⟩ := hfor
  refine ⟨peer, P.sender.signedKey, ⟨hpeer, hkey, ?_⟩, hdevice, rfl, haddress⟩
  rw [hw.ownDeviceId, h.ownDeviceId, hdevice]
  exact hallowed

/-- The receiver's session goes on, and its window for the sender stays as it is. -/
theorem receiver_moved {b : VirtualPacketBridge} {s : Session} (hl : crypto.Lawful) (hw : b.Wf crypto)
    (hs : b.sessions.lookup P.network = some s) (h : P.ReceiverSession s) {e : BridgeInputs × BridgeEvent}
    (he : P.ReceiverMay e.2) :
    ∃ t, (b.step crypto e).sessions.lookup P.network = some t ∧ P.ReceiverSession t ∧
      ∃ ops, t.cipher = s.cipher.run crypto ops ∧
        ∀ noncePrefix, ∀ op ∈ ops, NetworkPacketCipher.Foreign (P.cipher crypto noncePrefix) s.cipher op := by
  have hwf := hw _ s hs
  obtain ⟨new, -, hstepped⟩ := stepped hl hw e P.network
  rw [hs] at hstepped
  generalize hy : (b.step crypto e).sessions.lookup P.network = y at hstepped
  cases hstepped with
  | moved hmoved =>
    rename_i t
    obtain ⟨ops, hops, hcipher, -⟩ := hmoved.ops
    -- a snapshot lists the network once, as the receiver's snapshots have it
    have hsync : ∀ state, .updatePeers state ∈ ops → ∃ identity network, network.peers = state ∧ P.ForReceiver identity network := by
      intro state hmem
      obtain ⟨identity, networks, network, hsync, hchecked, hnetwork, hid, hstate, -⟩ := hops _ hmem
      rw [hsync] at he
      obtain ⟨other, hother, hid', hfor⟩ := he
      rw [← eq_of_networkId hchecked hnetwork hother (hid.trans hid'.symm)] at hfor
      exact ⟨identity, network, hstate, hfor⟩
    refine ⟨t, rfl, ⟨?_, ?_, ?_, ?_, ?_⟩, ops, hcipher, ?_⟩
    · rw [hmoved.key, h.key]
    · rw [hmoved.ownSignedKey, h.ownSignedKey]
    · rw [hmoved.ownDeviceId, h.ownDeviceId]
    · rw [hmoved.ownAddress, h.ownAddress]
    · rw [hcipher]
      refine h.subnet.run hl hwf.cipher fun op hop state heq => ?_
      obtain ⟨identity, network, rfl, hfor⟩ := hsync state (heq ▸ hop)
      exact hfor.2.2.2.1
    · intro noncePrefix op hop
      cases op with
      | updatePeers state =>
        obtain ⟨identity, network, rfl, hfor⟩ := hsync state hop
        exact keepsPeer_of_receiver h hwf hfor noncePrefix
      | encrypt packet => trivial
      | decrypt p d =>
        obtain ⟨hnetwork, delivery, hdelivery, rfl, rfl⟩ := hops _ hop
        rw [hdelivery] at he
        exact he hnetwork
  | dropped hdrops hsent =>
    exfalso
    rcases e with ⟨inputs, e⟩
    cases e with
    | clear => exact he
    | synchronize identity networks =>
      cases identity with
      | none => exact he
      | some identity =>
        obtain ⟨network, hmem, hid, -⟩ := he
        exact hdrops.2 network hmem hid
    | _ => exact hdrops
  | created i hsync hchecked hmem hid hnew hstate hcreated hsent =>
    rw [hsync] at he
    obtain ⟨other, hother, hid', hfor⟩ := he
    rw [← eq_of_networkId hchecked hmem hother (hid.trans hid'.symm)] at hfor
    exact absurd (keepsSession_of_receiver h hfor) (hnew s rfl)

/-- A window stays one while the queue and the sender are as they were. -/
theorem Window.foreign {s t : Session} {losses : ℕ} (h : P.Window crypto l prefixes s losses) (hl : crypto.Lawful)
    (hs : P.ReceiverSession s) (hw : SessionWf crypto P.network s) {ops : List CipherOp}
    (hcipher : t.cipher = s.cipher.run crypto ops)
    (hops : ∀ op ∈ ops, NetworkPacketCipher.Foreign (P.cipher crypto (prefixes losses)) s.cipher op) :
    P.Window crypto l prefixes t losses := by
  obtain ⟨r, seen, hlinked, hrest⟩ := h
  obtain ⟨hn, he⟩ := hs.nonzero hw
  obtain ⟨r', hlinked'⟩ := hlinked.foreign hl (wf_cipher hn he _) hw.cipher hops
  rw [← hcipher] at hlinked'
  exact ⟨r', seen, hlinked', hrest⟩

theorem Inv.receiverStep (h : P.Inv crypto l prefixes) (hl : crypto.Lawful) {inputs : BridgeInputs} {e : BridgeEvent}
    (he : P.ReceiverMay e) : P.Inv crypto (P.step crypto l (.receiver inputs e)) prefixes := by
  obtain ⟨s, hs, hsession, hwindow⟩ := h.receiver
  have hwf := h.receiverWf _ s hs
  obtain ⟨t, ht, hsession', ops, hcipher, hops⟩ := receiver_moved hl h.receiverWf hs hsession (e := (inputs, e)) he
  refine ⟨h.senderWf, wf_step hl h.receiverWf _, h.sender, h.queued, h.ordered, h.current, h.delivered, t, ht, hsession', ?_⟩
  intro losses hlosses
  exact (hwindow losses hlosses).foreign hl hsession hwf hcipher (hops _)

/-! ## Packets under way -/

theorem Inv.lose (h : P.Inv crypto l prefixes) : P.Inv crypto (P.step crypto l .lose) prefixes := by
  obtain ⟨s, hs, hsession, hwindow⟩ := h.receiver
  have htail : ∀ e ∈ l.queue.tail, e ∈ l.queue := fun e => List.mem_of_mem_tail
  refine ⟨h.senderWf, h.receiverWf, h.sender, fun e he => h.queued e (htail e he), h.ordered.sublist (List.tail_sublist _),
    fun e he => h.current e (htail e he), h.delivered, s, hs, hsession, ?_⟩
  intro losses hlosses
  obtain ⟨r, seen, hlinked, hempty, hqueue, hnext⟩ := hwindow losses hlosses
  exact ⟨r, seen, hlinked, hempty, fun m hm e he => hqueue m hm e (htail e he), hnext⟩

/-- The next packet, if every packet delivered before was sent after the same number of losses: it is decrypted, and the
window stays one. -/
theorem Window.deliver {s : Session} {losses : ℕ} {p : EncryptedNetworkPacket} (h : P.Window crypto l prefixes s losses)
    (hs : P.ReceiverSession s) (hw : SessionWf crypto P.network s) (hfor : P.IsFor l.receiver p)
    (hlookup : l.receiver.sessions.lookup P.network = some s) (hp : P.Genuine crypto (prefixes losses) p)
    (hqueue : (losses, p) ∈ l.queue) :
    ∃ r seen plaintext c, NetworkPacketCipher.decrypt crypto p P.sender.deviceId s.cipher = (.ok plaintext, c) ∧
      NetworkPacketCipher.Linked (P.cipher crypto (prefixes losses)) c r (insert p.sequence.toNat seen)
        (insert p.sequence.toNat seen) ∧
      (∀ m ∈ seen, ∀ e ∈ l.queue, e.1 = losses → m < e.2.sequence.toNat) ∧
      (losses = l.losses → ∀ m ∈ seen, ∃ t, l.sender.sessions.lookup P.network = some t ∧
        m ≤ t.cipher.nextSequence.toNat) := by
  obtain ⟨r, seen, hlinked, -, holder, hnext⟩ := h
  obtain ⟨plaintext, hsealed⟩ := hp
  obtain ⟨hn, he⟩ := hs.nonzero hw
  let x : Sent := ⟨p, plaintext, P.subnet, 24⟩
  have haddressed : s.cipher.Addressed P.sender.deviceId x := by
    refine ⟨hs.subnet.1.symm, hs.subnet.2.symm, ?_⟩
    rw [hw.ownAddress, hs.ownAddress, hs.subnet.1, hs.subnet.2]
    rcases hfor with hdest | ⟨hfanout, s', r', hs', hr', hallowed⟩
    · exact .inl hdest
    · rw [hlookup, Option.some.injEq] at hs'
      subst hs'
      refine .inr ⟨hfanout, ?_⟩
      rw [hr']
      exact hallowed
  have hfits : Fits 64 seen p.sequence.toNat := by
    refine ⟨fun hm => lt_irrefl _ (holder _ hm _ hqueue rfl), fun m hm => ?_⟩
    have hlt : m < p.sequence.toNat := holder m hm _ hqueue rfl
    omega
  rcases hlinked.deliver (wf_cipher hn he _) hw.cipher (x := x) hsealed haddressed with ⟨-, c, hdecrypt, r', hlinked'⟩ | ⟨hnot, -⟩
  · exact ⟨r', seen, plaintext, c, hdecrypt, hlinked', holder, hnext⟩
  · exact absurd hfits hnot

/-- The receiver's session after a delivery that it decrypted: `encrypt` may have been called since. -/
theorem receiver_delivered {b : VirtualPacketBridge} {s : Session} (hl : crypto.Lawful) (hw : b.Wf crypto)
    (hs : b.sessions.lookup P.network = some s) {p : EncryptedNetworkPacket} (hp : p.networkId = P.network)
    {plaintext : Bytes} {c : NetworkPacketCipher}
    (hdecrypt : NetworkPacketCipher.decrypt crypto p P.sender.deviceId s.cipher = (.ok plaintext, c)) (inputs : BridgeInputs) :
    ∃ t ps, (b.step crypto (inputs, .inbound ⟨P.sender.deviceId, p⟩)).sessions.lookup P.network = some t ∧
      t.cipher = c.run crypto (List.map .encrypt ps) := by
  rw [← hp] at hs ⊢
  simp only [VirtualPacketBridge.step]
  rcases inbound_cases hl hw inputs ⟨P.sender.deviceId, p⟩ with ⟨hnone, -⟩ | ⟨s', hs', hcases⟩
  · rw [hs] at hnone
    cases hnone
  · rw [hs, Option.some.injEq] at hs'
    subst hs'
    rcases hcases with ⟨e, herr, -⟩ | ⟨plaintext', c', hok, new, -, hn⟩
    · rw [hdecrypt] at herr
      cases herr
    · rw [hdecrypt] at hok
      cases hok
      have hcarried := hn p.networkId
      dsimp only at hcarried
      rw [AList.lookup_insert] at hcarried
      cases ht : (inbound crypto inputs ⟨P.sender.deviceId, p⟩ b).2.sessions.lookup p.networkId with
      | none =>
        rw [ht] at hcarried
        exact hcarried.elim
      | some t =>
        rw [ht] at hcarried
        obtain ⟨ps, -, hrun, -⟩ := hcarried
        exact ⟨t, ps, rfl, hrun⟩

/-- A delivery keeps the receiver's session. -/
theorem receiver_kept {b : VirtualPacketBridge} {s : Session} (hl : crypto.Lawful) (hw : b.Wf crypto)
    (hs : b.sessions.lookup P.network = some s) (h : P.ReceiverSession s) (inputs : BridgeInputs)
    (delivery : ForwardedNetworkPacket) :
    ∃ t, (b.step crypto (inputs, .inbound delivery)).sessions.lookup P.network = some t ∧ P.ReceiverSession t := by
  obtain ⟨new, -, hstepped⟩ := stepped hl hw (inputs, .inbound delivery) P.network
  rw [hs] at hstepped
  generalize hy : (b.step crypto (inputs, .inbound delivery)).sessions.lookup P.network = y at hstepped
  cases hstepped with
  | moved hmoved =>
    rename_i t
    obtain ⟨ops, hops, hcipher, -⟩ := hmoved.ops
    refine ⟨t, rfl, ?_, ?_, ?_, ?_, ?_⟩
    · rw [hmoved.key, h.key]
    · rw [hmoved.ownSignedKey, h.ownSignedKey]
    · rw [hmoved.ownDeviceId, h.ownDeviceId]
    · rw [hmoved.ownAddress, h.ownAddress]
    · rw [hcipher]
      refine h.subnet.run hl (hw _ s hs).cipher fun op hop state heq => ?_
      obtain ⟨identity, networks, network, hsync, -⟩ := hops _ (heq ▸ hop)
      cases hsync
  | dropped hdrops hsent => exact hdrops.elim
  | created i hsync => cases hsync

theorem Inv.deliver (h : P.Inv crypto l prefixes) (hl : crypto.Lawful) {inputs : BridgeInputs}
    (hmay : P.May l (.deliver inputs)) : P.Inv crypto (P.step crypto l (.deliver inputs)) prefixes := by
  cases hqueue : l.queue with
  | nil =>
    simp only [Peering.step, hqueue]
    exact h
  | cons next rest =>
    obtain ⟨losses, p⟩ := next
    simp only [Peering.step, hqueue]
    obtain ⟨s, hs, hsession, hwindow⟩ := h.receiver
    have hwf := h.receiverWf _ s hs
    have hmem : (losses, p) ∈ l.queue := by simp [hqueue]
    have hrest : ∀ e ∈ rest, e ∈ l.queue := fun e he => by simp [hqueue, he]
    obtain ⟨hle, hgenuine⟩ := h.queued _ hmem
    have hordered := h.ordered
    rw [hqueue, List.pairwise_cons] at hordered
    obtain ⟨t, ht, hsession'⟩ := receiver_kept hl h.receiverWf hs hsession inputs ⟨P.sender.deviceId, p⟩
    refine ⟨h.senderWf, wf_step hl h.receiverWf _, h.sender, fun e he => h.queued e (hrest e he), hordered.2,
      fun e he => h.current e (hrest e he), ?_, t, ht, hsession', ?_⟩
    · intro n hn
      rcases List.mem_append.1 hn with hn | hn
      · exact h.delivered n hn
      · rw [List.mem_singleton] at hn
        subst hn
        refine ⟨hle, fun heq => ?_⟩
        obtain ⟨u, hu, -⟩ := h.current _ hmem heq
        exact Option.isSome_iff_exists.2 ⟨u, hu⟩
    · intro n hn
      obtain rfl : losses = n := hn losses (by simp)
      have hbefore := hwindow losses fun n' hn' => hn n' (by simp [hn'])
      have hfor := hmay (losses, p) (by simp [hqueue])
      obtain ⟨r, seen, plaintext, c, hdecrypt, hlinked, holder, hnext⟩ :=
        hbefore.deliver hsession hwf hfor hs hgenuine hmem
      obtain ⟨plaintext', hsealed⟩ := hgenuine
      obtain ⟨t', ps, ht', hcipher⟩ := receiver_delivered hl h.receiverWf hs hsealed.networkId hdecrypt inputs
      rw [ht, Option.some.injEq] at ht'
      subst ht'
      have hc : c.Wf crypto := by
        have hstep : c = s.cipher.step crypto (.decrypt p P.sender.deviceId) := (congrArg Prod.snd hdecrypt).symm
        rw [hstep]
        exact NetworkPacketCipher.wf_step hl hwf.cipher _
      obtain ⟨hnetwork, hepoch⟩ := hsession.nonzero hwf
      have hforeign : ∀ op ∈ ps.map CipherOp.encrypt,
          NetworkPacketCipher.Foreign (P.cipher crypto (prefixes losses)) c op := by
        intro op hop
        obtain ⟨q, -, rfl⟩ := List.mem_map.1 hop
        trivial
      obtain ⟨r', hlinked'⟩ := hlinked.foreign hl (wf_cipher hnetwork hepoch _) hc hforeign
      rw [← hcipher] at hlinked'
      refine ⟨r', insert p.sequence.toNat seen, hlinked', by simp, ?_, ?_⟩
      · intro m hm e he heq
        rcases Finset.mem_insert.1 hm with rfl | hm
        · exact hordered.1 e he heq.symm
        · exact holder m hm e (hrest e he) heq
      · intro heq m hm
        rcases Finset.mem_insert.1 hm with rfl | hm
        · exact h.current _ hmem heq
        · exact hnext heq m hm

/-! ## Steps of the sender -/

/-- A window nothing has come through fits any cipher of the sender. -/
theorem linked_empty {c : NetworkPacketCipher} {r : PeerReceiver} {noncePrefix : BitVec 64}
    (h : NetworkPacketCipher.Linked (P.cipher crypto noncePrefix) c r ∅ ∅) (other : BitVec 64) :
    NetworkPacketCipher.Linked (P.cipher crypto other) c r ∅ ∅ := by
  refine ⟨h.networkId, h.keyEpoch, h.networkKey, h.lookup, h.session, h.address, ?_, h.subset, h.final⟩
  have hstands := h.stands
  unfold PeerReceiver.Stands at *
  split
  · rename_i hinit
    rw [if_pos hinit] at hstands
    exact absurd hstands.2.1 (Finset.notMem_empty _)
  · rfl

/-- The sender sends nothing and its number of losses is new: none of the packets under way or delivered has it. -/
theorem Inv.quiet (h : P.Inv crypto l prefixes) {sender : VirtualPacketBridge} {losses : ℕ} {prefixes' : ℕ → BitVec 64}
    (hwf : sender.Wf crypto) (hle : l.losses ≤ losses)
    (hsender : ∀ s, sender.sessions.lookup P.network = some s →
      P.SenderSession s ∧ s.cipher.outgoingNoncePrefix = prefixes' losses)
    (hqueue : ∀ e ∈ l.queue, e.1 ≠ losses) (hdelivered : ∀ t ∈ l.delivered, t ≠ losses)
    (hleadinges : ∀ t, t ≠ losses → prefixes' t = prefixes t) :
    P.Inv crypto { l with sender, losses } prefixes' := by
  obtain ⟨s, hs, hsession, hwindow⟩ := h.receiver
  refine ⟨hwf, h.receiverWf, hsender, ?_, h.ordered, ?_, ?_, s, hs, hsession, ?_⟩
  · intro e he
    obtain ⟨hlosses, hgenuine⟩ := h.queued e he
    rw [hleadinges e.1 (hqueue e he)]
    exact ⟨hlosses.trans hle, hgenuine⟩
  · intro e he heq
    exact absurd heq (hqueue e he)
  · intro t ht
    exact ⟨(h.delivered t ht).1.trans hle, fun heq => absurd heq (hdelivered t ht)⟩
  · intro n hn
    obtain ⟨r, seen, hlinked, hempty, hrest⟩ := hwindow n hn
    by_cases heq : n = losses
    · have hnil : l.delivered = [] := by
        rw [List.eq_nil_iff_forall_not_mem]
        intro t ht
        exact hdelivered t ht ((hn t ht).trans heq)
      have hseen := hempty hnil
      subst hseen
      exact ⟨r, ∅, linked_empty hlinked _, fun _ => rfl, by simp, by simp⟩
    · rw [Window, hleadinges n heq]
      exact ⟨r, seen, hlinked, hempty, hrest.1, fun hn' => absurd hn' heq⟩

theorem keepsSession_of_sender {s : Session} {identity : PacketIdentitySnapshot} {network : ActiveNetworkPacketState}
    (h : P.SenderSession s) (hfor : P.ForSender identity network) : keepsSession s identity network := by
  obtain ⟨hidentity, hkey, haddress, -⟩ := hfor
  simp [keepsSession, h.key, h.ownSignedKey, h.ownAddress, hidentity, hkey, haddress]

/-- A session the sender gets when the network comes back. -/
theorem senderSession_created {noncePrefix : BitVec 64} {identity : PacketIdentitySnapshot} {network : ActiveNetworkPacketState}
    {t : Session} (hfor : P.ForSender identity network) (h : created crypto noncePrefix identity network = .ok t) :
    P.SenderSession t ∧ t.cipher.outgoingNoncePrefix = noncePrefix := by
  obtain ⟨hidentity, hkey, haddress, hsubnet⟩ := hfor
  obtain ⟨c, hmake, hupdate, hkey', hsigned, hdevice, hpeers⟩ := created_ok h
  have hupdated := NetworkPacketCipher.updatePeers_ok hupdate
  refine ⟨⟨hkey'.trans hkey, ?_, ?_, ?_, hupdated.subnet.trans hsubnet, hupdated.prefixed⟩, ?_⟩
  · rw [hsigned, hidentity]
  · rw [hdevice, hidentity]
  · rw [hpeers, haddress]
  · rw [hupdated.same.outgoingNoncePrefix]
    simp only [NetworkPacketCipher.make, bind_eq_ok, Except.ok.injEq] at hmake
    obtain ⟨-, -, rfl⟩ := hmake
    rfl

/-- The sender goes on with its session and sends the packets of some calls of its cipher. -/
theorem Inv.sends (h : P.Inv crypto l prefixes) (hl : crypto.Lawful) {sender : VirtualPacketBridge} {s t : Session}
    (hwf : sender.Wf crypto) (hs : l.sender.sessions.lookup P.network = some s)
    (ht : sender.sessions.lookup P.network = some t) (hsession : P.SenderSession t) {ops : List CipherOp}
    (hcipher : t.cipher = s.cipher.run crypto ops)
    (hstays : ∀ op ∈ ops, NetworkPacketCipher.StaysOn P.subnet op) :
    P.Inv crypto { l with
      sender
      queue := l.queue ++ ((s.cipher.sent crypto ops).map (·.packet)).map fun p => (l.losses, p) } prefixes := by
  obtain ⟨hsender, hleading⟩ := h.sender s hs
  have hw := h.senderWf _ s hs
  have hsequences := NetworkPacketCipher.sequence_sent hl hw.cipher ops
  have hnext : t.cipher.nextSequence.toNat = s.cipher.nextSequence.toNat + (s.cipher.sent crypto ops).length := by
    rw [hcipher]
    exact NetworkPacketCipher.nextSequence_run hl hw.cipher ops
  -- a new packet has a number above all those before, and not above the counter
  have hnew : ∀ e ∈ ((s.cipher.sent crypto ops).map (·.packet)).map fun p => (l.losses, p),
      e.1 = l.losses ∧ P.Genuine crypto (prefixes l.losses) e.2 ∧ s.cipher.nextSequence.toNat < e.2.sequence.toNat ∧
        e.2.sequence.toNat ≤ t.cipher.nextSequence.toNat := by
    intro e he
    simp only [List.map_map, List.mem_map, Function.comp_apply] at he
    obtain ⟨x, hx, rfl⟩ := he
    have hmem : x.packet.sequence.toNat ∈ (s.cipher.sent crypto ops).map (·.packet.sequence.toNat) := List.mem_map_of_mem hx
    rw [hsequences, List.mem_range'_1] at hmem
    dsimp only
    refine ⟨rfl, ⟨x.plaintext, ?_⟩, by omega, by omega⟩
    have hsealed := NetworkPacketCipher.sealed_congr (hsender.same hw) (NetworkPacketCipher.sealed_sent hl hw.cipher hx)
    obtain ⟨hsubnet, hlength⟩ := hsender.subnet.sent hl hw.cipher hstays hx
    rw [hleading, hsubnet, hlength] at hsealed
    exact hsealed
  obtain ⟨u, hu, hreceiver, hwindow⟩ := h.receiver
  refine ⟨hwf, h.receiverWf, ?_, ?_, ?_, ?_, ?_, u, hu, hreceiver, ?_⟩
  · intro s' hs'
    rw [ht, Option.some.injEq] at hs'
    subst hs'
    refine ⟨hsession, ?_⟩
    rw [hcipher, (NetworkPacketCipher.wf_run hl hw.cipher ops).2.outgoingNoncePrefix]
    exact hleading
  · intro e he
    rcases List.mem_append.1 he with he | he
    · exact h.queued e he
    · obtain ⟨hlosses, hgenuine, -⟩ := hnew e he
      rw [hlosses]
      exact ⟨le_rfl, hgenuine⟩
  · refine List.pairwise_append.2 ⟨h.ordered, ?_, ?_⟩
    · have hsorted : ((s.cipher.sent crypto ops).map (·.packet.sequence.toNat)).Pairwise (· < ·) := by
        rw [hsequences]
        exact List.pairwise_lt_range'
      simp only [List.pairwise_map] at hsorted ⊢
      exact hsorted.imp fun hlt _ => hlt
    · intro e he f hf heq
      obtain ⟨hlosses, -, hlt, -⟩ := hnew f hf
      obtain ⟨s', hs', hle⟩ := h.current e he (heq.trans hlosses)
      rw [hs, Option.some.injEq] at hs'
      subst hs'
      omega
  · intro e he heq
    refine ⟨t, ht, ?_⟩
    rcases List.mem_append.1 he with he | he
    · obtain ⟨s', hs', hle⟩ := h.current e he heq
      rw [hs, Option.some.injEq] at hs'
      subst hs'
      omega
    · exact (hnew e he).2.2.2
  · intro n hn
    exact ⟨(h.delivered n hn).1, fun _ => Option.isSome_iff_exists.2 ⟨t, ht⟩⟩
  · intro n hn
    obtain ⟨r, seen, hlinked, hempty, holder, hcounter⟩ := hwindow n hn
    have hbelow : n = l.losses → ∀ m ∈ seen, m ≤ s.cipher.nextSequence.toNat := by
      intro heq m hm
      obtain ⟨s', hs', hle⟩ := hcounter heq m hm
      rw [hs, Option.some.injEq] at hs'
      subst hs'
      exact hle
    refine ⟨r, seen, hlinked, hempty, ?_, ?_⟩
    · intro m hm e he heq
      rcases List.mem_append.1 he with he | he
      · exact holder m hm e he heq
      · obtain ⟨hlosses, -, hlt, -⟩ := hnew e he
        exact lt_of_le_of_lt (hbelow (heq.symm.trans hlosses) m hm) hlt
    · intro heq m hm
      have hle := hbelow heq m hm
      exact ⟨t, ht, by omega⟩

theorem Inv.senderStep (h : P.Inv crypto l prefixes) (hl : crypto.Lawful) {inputs : BridgeInputs} {e : BridgeEvent}
    (he : P.SenderMay e) : ∃ prefixes', P.Inv crypto (P.step crypto l (.sender inputs e)) prefixes' := by
  obtain ⟨new, hcalls, hstepped⟩ := stepped hl h.senderWf (inputs, e) P.network
  dsimp only at hstepped
  have hwf := wf_step hl h.senderWf (inputs, e)
  have hnew : (l.sender.step crypto (inputs, e)).calls.drop l.sender.calls.length = new := by
    rw [hcalls, List.drop_left]
  simp only [Peering.step, hnew]
  generalize l.sender.step crypto (inputs, e) = sender at *
  -- without a session nothing under way or delivered has the current number of losses
  have habsent : l.sender.sessions.lookup P.network = none →
      (∀ e ∈ l.queue, e.1 ≠ l.losses) ∧ ∀ t ∈ l.delivered, t ≠ l.losses := by
    intro hnone
    constructor
    · intro e he heq
      obtain ⟨s, hs, -⟩ := h.current e he heq
      rw [hnone] at hs
      cases hs
    · intro t ht heq
      have hsome := (h.delivered t ht).2 heq
      rw [hnone] at hsome
      cases hsome
  generalize hx : l.sender.sessions.lookup P.network = x at hstepped ⊢
  generalize hy : sender.sessions.lookup P.network = y at hstepped ⊢
  cases hstepped with
  | absent hsent =>
    simp only [hsent, List.map_nil, List.append_nil]
    refine ⟨prefixes, h.quiet hwf le_rfl ?_ (habsent hx).1 (habsent hx).2 fun _ _ => rfl⟩
    intro s hs
    rw [hy] at hs
    cases hs
  | moved hmoved =>
    rename_i s t
    obtain ⟨ops, hops, hcipher, hsent⟩ := hmoved.ops
    obtain ⟨hsession, -⟩ := h.sender s hx
    have hstays : ∀ op ∈ ops, NetworkPacketCipher.StaysOn P.subnet op := by
      intro op hop state heq
      obtain ⟨identity, networks, network, hsync, -, hmem, hid, hstate, -⟩ := hops _ (heq ▸ hop)
      rw [hsync] at he
      rw [← hstate]
      exact (he network hmem hid).2.2.2
    simp only [hsent]
    refine ⟨prefixes, h.sends hl hwf hx hy ⟨?_, ?_, ?_, ?_, ?_⟩ hcipher hstays⟩
    · rw [hmoved.key, hsession.key]
    · rw [hmoved.ownSignedKey, hsession.ownSignedKey]
    · rw [hmoved.ownDeviceId, hsession.ownDeviceId]
    · rw [hmoved.ownAddress, hsession.ownAddress]
    · rw [hcipher]
      exact hsession.subnet.run hl (h.senderWf _ s hx).cipher hstays
  | dropped hdrops hsent =>
    simp only [hsent, List.map_nil, List.append_nil, Option.isSome_some, Option.isNone_none, Bool.and_self, if_true]
    refine ⟨prefixes, h.quiet hwf (Nat.le_succ _) ?_ ?_ ?_ fun _ _ => rfl⟩
    · intro s hs
      rw [hy] at hs
      cases hs
    · intro e he
      have hle := (h.queued e he).1
      omega
    · intro t ht
      have hle := (h.delivered t ht).1
      omega
  | created i hsync hchecked hmem hid hkept hstate hcreated hsent =>
    rename_i t identity networks network
    rw [hsync] at he
    have hfor := he network hmem hid
    obtain ⟨hsession, hleading⟩ := senderSession_created hfor hcreated
    -- a session that is there is kept
    have hnone : x = none := by
      cases x with
      | none => rfl
      | some s => exact absurd (keepsSession_of_sender (h.sender s hx).1 hfor) (hkept s rfl)
    subst hnone
    simp only [hsent, List.map_nil, List.append_nil, Option.isSome_none, Bool.false_and, Bool.false_eq_true, if_false]
    refine ⟨Function.update prefixes l.losses (inputs.noncePrefixes i), h.quiet hwf le_rfl ?_ (habsent hx).1 (habsent hx).2 ?_⟩
    · intro s hs
      rw [hy, Option.some.injEq] at hs
      subst hs
      exact ⟨hsession, by rw [hleading, Function.update_self]⟩
    · intro n hn
      exact Function.update_of_ne hn _ _

/-! ## Runs -/

theorem Inv.step (h : P.Inv crypto l prefixes) (hl : crypto.Lawful) {e : LinkEvent} (he : P.May l e) :
    ∃ prefixes', P.Inv crypto (P.step crypto l e) prefixes' := by
  cases e with
  | sender inputs e => exact h.senderStep hl he
  | receiver inputs e => exact ⟨prefixes, h.receiverStep hl he⟩
  | deliver inputs => exact ⟨prefixes, h.deliver hl he⟩
  | lose => exact ⟨prefixes, h.lose⟩

/-- A session the receiver gets from its first snapshot: no packet of the sender has come. -/
theorem receiver_created {noncePrefix : BitVec 64} {identity : PacketIdentitySnapshot} {network : ActiveNetworkPacketState}
    {t : Session} (hw : SessionWf crypto P.network t) (hfor : P.ForReceiver identity network)
    (h : created crypto noncePrefix identity network = .ok t) :
    P.ReceiverSession t ∧
      ∀ other, ∃ r, NetworkPacketCipher.Linked (P.cipher crypto other) t.cipher r ∅ ∅ := by
  obtain ⟨hidentity, hkey, haddress, hsubnet, peer, hpeer, hdevice, hpeerAddress, hsigned, hallowed⟩ := hfor
  obtain ⟨c, hmake, hupdate, hkey', hsigned', hdevice', hpeers⟩ := created_ok h
  have hupdated := NetworkPacketCipher.updatePeers_ok hupdate
  obtain ⟨-, -, hempty⟩ := NetworkPacketCipher.make_ok hmake
  have hown : c.ownDeviceId = P.receiver.deviceId := by
    rw [← hupdated.same.ownDeviceId, hw.ownDeviceId, hdevice', hidentity]
  have hlookup := (hupdated.lookup P.sender.deviceId _).2
    ⟨peer, P.sender.signedKey, ⟨hpeer, hsigned, by rw [hown, hdevice]; exact hallowed⟩, hdevice, rfl⟩
  have hnew : c.peers.lookup peer.deviceId = none := by
    rw [hempty]
    rfl
  constructor
  · refine ⟨hkey'.trans hkey, ?_, ?_, ?_, hupdated.subnet.trans hsubnet, hupdated.prefixed⟩
    · rw [hsigned', hidentity]
    · rw [hdevice', hidentity]
    · rw [hpeers, haddress]
  · intro other
    refine ⟨_, hw.networkId, ?_, ?_, hlookup, ?_, ?_, ?_, by simp, by simp⟩
    · rw [hw.keyEpoch, hkey', hkey]
      rfl
    · rw [hw.networkKey, hkey', hkey]
      rfl
    · simp only [NetworkPacketCipher.receiverFor, hnew]
      rfl
    · simp only [NetworkPacketCipher.receiverFor, hnew]
      exact hpeerAddress
    · simp [NetworkPacketCipher.receiverFor, hnew, PeerReceiver.Stands]

theorem inv_start (hl : crypto.Lawful) {inputs : BridgeInputs} {networks : List ActiveNetworkPacketState}
    (hmay : P.ReceiverMay (.synchronize (some P.receiver) networks))
    (hready : ((P.start crypto inputs networks).receiver.sessions.lookup P.network).isSome) :
    P.Inv crypto (P.start crypto inputs networks) fun _ => 0 := by
  have hempty : ({} : VirtualPacketBridge).Wf crypto := by
    intro n s hs
    cases hs
  have hwf := wf_step hl hempty (inputs, .synchronize (some P.receiver) networks)
  refine ⟨hempty, hwf, (fun s hs => nomatch hs), by simp [start], by simp [start], by simp [start], by simp [start], ?_⟩
  obtain ⟨t, ht⟩ := Option.isSome_iff_exists.1 hready
  obtain ⟨new, -, hstepped⟩ := stepped hl hempty (inputs, .synchronize (some P.receiver) networks) P.network
  have ht' : (({} : VirtualPacketBridge).step crypto (inputs, .synchronize (some P.receiver) networks)).sessions.lookup
      P.network = some t := ht
  have hbefore : ({} : VirtualPacketBridge).sessions.lookup P.network = none := rfl
  rw [ht', hbefore] at hstepped
  cases hstepped with
  | created i hsync hchecked hmem hid hnew hstate hcreated hsent =>
    cases hsync
    obtain ⟨other, hother, hid', hfor⟩ := hmay
    rw [← eq_of_networkId hchecked hmem hother (hid.trans hid'.symm)] at hfor
    obtain ⟨hsession, hlinked⟩ := receiver_created (hwf _ t ht') hfor hcreated
    refine ⟨t, ht, hsession, fun losses _ => ?_⟩
    obtain ⟨r, hr⟩ := hlinked 0
    exact ⟨r, ∅, hr, fun _ => rfl, by simp, by simp⟩

/-- The link after the first `k` events. -/
def run (P : Peering) (crypto : PacketCrypto) (l : Link) (events : ℕ → LinkEvent) (k : ℕ) : Link :=
  states (P.step crypto) l events k

theorem inv_run (hl : crypto.Lawful) {inputs : BridgeInputs} {networks : List ActiveNetworkPacketState}
    (hfirst : P.ReceiverMay (.synchronize (some P.receiver) networks))
    (hready : ((P.start crypto inputs networks).receiver.sessions.lookup P.network).isSome) {events : ℕ → LinkEvent}
    (hmay : ∀ k, P.May (P.run crypto (P.start crypto inputs networks) events k) (events k)) (k : ℕ) :
    ∃ prefixes, P.Inv crypto (P.run crypto (P.start crypto inputs networks) events k) prefixes := by
  refine states_inv (fun l => ∃ prefixes, P.Inv crypto l prefixes) P.May ⟨_, inv_start hl hfirst hready⟩ ?_ hmay k
  rintro l e he ⟨prefixes, h⟩
  exact h.step hl he

/-- In every run, a packet that comes to the receiver is decrypted if those that came before it were encrypted after the
same number of losses of the network by the sender. -/
theorem delivery_accepted (crypto : PacketCrypto) (hl : crypto.Lawful) (P : Peering) (inputs : BridgeInputs)
    (networks : List ActiveNetworkPacketState) (hfirst : P.ReceiverMay (.synchronize (some P.receiver) networks))
    (hready : ((P.start crypto inputs networks).receiver.sessions.lookup P.network).isSome) (events : ℕ → LinkEvent)
    (hmay : ∀ k, P.May (P.run crypto (P.start crypto inputs networks) events k) (events k)) (k : ℕ) (now : BridgeInputs)
    (hk : events k = .deliver now) (e : ℕ × EncryptedNetworkPacket)
    (he : (P.run crypto (P.start crypto inputs networks) events k).queue.head? = some e)
    (hone : ∀ losses ∈ (P.run crypto (P.start crypto inputs networks) events k).delivered, losses = e.1) :
    P.Accepts crypto (P.run crypto (P.start crypto inputs networks) events k).receiver e.2 := by
  obtain ⟨prefixes, h⟩ := inv_run hl hfirst hready hmay k
  have hfor := hmay k
  rw [hk] at hfor
  generalize P.run crypto (P.start crypto inputs networks) events k = l at *
  have hmem : e ∈ l.queue := List.mem_of_head? he
  obtain ⟨s, hs, hsession, hwindow⟩ := h.receiver
  obtain ⟨r, seen, plaintext, c, hdecrypt, -⟩ := (hwindow e.1 hone).deliver hsession (h.receiverWf _ s hs) (hfor e he) hs
    (h.queued e hmem).2 hmem
  simp [Accepts, hs, hdecrypt, Except.isOk, Except.toBool]

open NetworkPacketCipher

/-- The devices of the sample ciphers. -/
def samplePeering : Peering :=
  { network := 8, key := { epoch := 1, key := 5 }, subnet := 0x0a400000
    sender := { deviceId := 2, signedKey := sampleKey 2 }, senderAddress := 0x0a400001
    receiver := { deviceId := 3, signedKey := sampleKey 3 }, receiverAddress := 0x0a400002 }

def sampleNetworks : List ActiveNetworkPacketState :=
  [{ peers := sampleState 0x0a400002 2 0x0a400001, key := { epoch := 1, key := 5 } }]

theorem sample_first : samplePeering.ReceiverMay (.synchronize (some samplePeering.receiver) sampleNetworks) :=
  ⟨_, List.mem_singleton.2 rfl, rfl, rfl, rfl, rfl, rfl, _, List.mem_singleton.2 rfl, rfl, rfl, rfl, rfl⟩

theorem sample_senderMay (revision : UInt64) :
    samplePeering.SenderMay (sampleSnapshot 2 0x0a400001 3 0x0a400002 revision) := by
  intro network hmem _
  rw [List.mem_singleton] at hmem
  subst hmem
  exact ⟨rfl, rfl, rfl, rfl⟩

/-- The link of the samples, in a run. -/
def sampleLink (events : ℕ → LinkEvent) (k : ℕ) : Link :=
  samplePeering.run plainPacketCrypto (samplePeering.start plainPacketCrypto {} sampleNetworks) events k

/-- The sender's snapshot is refreshed between two packets. -/
def steadyRun : ℕ → LinkEvent
  | 0 => .sender { noncePrefixes := fun _ => 7 } (sampleSnapshot 2 0x0a400001 3 0x0a400002 1)
  | 1 => .sender {} (.outbound samplePing)
  | 2 => .deliver {}
  | 3 => .sender { noncePrefixes := fun _ => 9 } (sampleSnapshot 2 0x0a400001 3 0x0a400002 2)
  | 4 => .sender {} (.outbound samplePing)
  | 5 => .deliver {}
  | _ => .lose

theorem sample_isFor {l : Link} (h : (l.queue.head?.all fun e => e.2.destinationIpv4 = 0x0a400002) = true)
    (inputs : BridgeInputs) : samplePeering.May l (.deliver inputs) := by
  intro e he
  rw [he] at h
  exact .inl (by simpa [samplePeering] using h)

theorem steadyRun_may (k : ℕ) : samplePeering.May (sampleLink steadyRun k) (steadyRun k) := by
  match k with
  | 0 => exact sample_senderMay 1
  | 1 => trivial
  | 2 => exact sample_isFor (by decide +kernel) {}
  | 3 => exact sample_senderMay 2
  | 4 => trivial
  | 5 => exact sample_isFor (by decide +kernel) {}
  | k + 6 => trivial

theorem delivery_accepted_steady : ∃ e, (sampleLink steadyRun 5).queue.head? = some e ∧
    samplePeering.Accepts plainPacketCrypto (sampleLink steadyRun 5).receiver e.2 := by
  have hhead : ((sampleLink steadyRun 5).queue.head?.any fun e =>
      (sampleLink steadyRun 5).delivered.all fun losses => losses = e.1) = true := by
    decide +kernel
  obtain ⟨e, he, hone⟩ := (Option.any_eq_true _ _).1 hhead
  refine ⟨e, he, ?_⟩
  refine delivery_accepted plainPacketCrypto plainPacketCrypto_lawful samplePeering {} sampleNetworks sample_first
    (by decide +kernel) steadyRun steadyRun_may 5 {} rfl e he ?_
  intro losses hlosses
  simpa using List.all_eq_true.1 hone losses hlosses

/-- The sender is cleared between two packets. -/
def interruptedRun : ℕ → LinkEvent
  | 0 => .sender { noncePrefixes := fun _ => 7 } (sampleSnapshot 2 0x0a400001 3 0x0a400002 1)
  | 1 => .sender {} (.outbound samplePing)
  | 2 => .deliver {}
  | 3 => .sender {} .clear
  | 4 => .sender { noncePrefixes := fun _ => 9 } (sampleSnapshot 2 0x0a400001 3 0x0a400002 1)
  | 5 => .sender {} (.outbound samplePing)
  | 6 => .deliver {}
  | _ => .lose

theorem interruptedRun_may (k : ℕ) : samplePeering.May (sampleLink interruptedRun k) (interruptedRun k) := by
  match k with
  | 0 => exact sample_senderMay 1
  | 1 => trivial
  | 2 => exact sample_isFor (by decide +kernel) {}
  | 3 => trivial
  | 4 => exact sample_senderMay 1
  | 5 => trivial
  | 6 => exact sample_isFor (by decide +kernel) {}
  | k + 7 => trivial

/-- The packets of a sender that got the network back are refused. -/
theorem delivery_refused_after_loss :
    ¬ ∀ (crypto : PacketCrypto), crypto.Lawful → ∀ (P : Peering) (inputs : BridgeInputs)
      (networks : List ActiveNetworkPacketState), P.ReceiverMay (.synchronize (some P.receiver) networks) →
      ((P.start crypto inputs networks).receiver.sessions.lookup P.network).isSome →
      ∀ events : ℕ → LinkEvent, (∀ k, P.May (P.run crypto (P.start crypto inputs networks) events k) (events k)) →
      ∀ k now, events k = .deliver now →
      ∀ e, (P.run crypto (P.start crypto inputs networks) events k).queue.head? = some e →
        P.Accepts crypto (P.run crypto (P.start crypto inputs networks) events k).receiver e.2 := by
  intro h
  have hrefused : ((sampleLink interruptedRun 6).queue.head?.any fun e =>
      ¬ samplePeering.Accepts plainPacketCrypto (sampleLink interruptedRun 6).receiver e.2) = true := by
    decide +kernel
  obtain ⟨e, he, hnot⟩ := (Option.any_eq_true _ _).1 hrefused
  have haccepted := h plainPacketCrypto plainPacketCrypto_lawful samplePeering {} sampleNetworks sample_first
    (by decide +kernel) interruptedRun interruptedRun_may 6 {} rfl e he
  exact of_decide_eq_true hnot haccepted

end Peering

end LanLink
