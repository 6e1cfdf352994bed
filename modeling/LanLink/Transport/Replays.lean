import LanLink.Transport.BridgeRuns
/-!
# Replayed deliveries

A packet a bridge decrypted once is refused for as long as the bridge holds the
window of its sender. `synchronize` keeps that window only while each snapshot
lists the network and the sender with the keys and addresses they had, and
`clear` drops it: after either the packet is decrypted and injected again.
-/
open LanLink.Lib

namespace LanLink

/-! ## A window that is shut for a packet -/

namespace PeerReceiver
variable {r : PeerReceiver} {p q : EncryptedNetworkPacket} {seen : Finset ℕ}

/-- The window stands for the packets it took. -/
def Marked (r : PeerReceiver) : Prop := ∃ seen, r.Stands r.noncePrefix seen

/-- The window took the packet, or one too far ahead of it. -/
def Shut (r : PeerReceiver) (p : EncryptedNetworkPacket) : Prop :=
  ∃ seen, r.Stands p.prefixOfNonce seen ∧ ¬ Fits 64 seen p.sequence.toNat

theorem Shut.refuses (h : r.Shut p) : r.refuses p = true := by
  obtain ⟨seen, hstands, hfits⟩ := h
  rw [← Bool.not_eq_false, hstands.refuses_iff]
  exact hfits

/-- Packets with the nonce and the number of a packet are treated as it is. -/
theorem Shut.congr (h : r.Shut p) (hnonce : q.nonce = p.nonce) (hsequence : q.sequence = p.sequence) : r.Shut q := by
  unfold Shut EncryptedNetworkPacket.prefixOfNonce at *
  rw [hnonce, hsequence]
  exact h

/-- A packet that is not refused has the nonce prefix of the window. -/
theorem stands_of_taken (h : r.Stands r.noncePrefix seen) (htaken : r.refuses p = false) : r.Stands p.prefixOfNonce seen := by
  unfold Stands at *
  split
  · rename_i hinit
    rw [if_pos hinit] at h
    simp only [PeerReceiver.refuses, hinit, Bool.true_and, Bool.or_eq_false_iff, decide_eq_false_iff_not, not_not] at htaken
    exact ⟨htaken.1, h.2⟩
  · rename_i hinit
    rw [if_neg hinit] at h
    exact h

theorem noncePrefix_of_stands {start : BitVec 64} (h : r.Stands start seen) (hinit : r.initialized) :
    r.noncePrefix = start := by
  unfold Stands at h
  rw [if_pos hinit] at h
  exact h.1

theorem initialized_record : (r.record p).initialized := by
  unfold PeerReceiver.record
  split
  · rfl
  · rename_i hinit
    split
    · exact not_not.1 hinit
    · exact not_not.1 hinit

theorem Marked.record (h : r.Marked) (htaken : r.refuses p = false) : (r.record p).Marked ∧ (r.record p).Shut p := by
  obtain ⟨seen, hstands⟩ := h
  have htook := stands_of_taken hstands htaken
  have hrecord := htook.record (htook.refuses_iff.1 htaken)
  constructor
  · rw [← noncePrefix_of_stands hrecord initialized_record] at hrecord
    exact ⟨_, hrecord⟩
  · exact ⟨_, hrecord, not_fits_insert⟩

/-- Later packets leave it shut. -/
theorem Shut.record (h : r.Shut q) (htaken : r.refuses p = false) : (r.record p).Shut q := by
  obtain ⟨seen, hstands, hfits⟩ := h
  have hinit : r.initialized := by
    by_contra hnot
    unfold Stands at hstands
    rw [if_neg hnot] at hstands
    subst hstands
    exact hfits (by simp [Fits])
  have hleading := noncePrefix_of_stands hstands hinit
  rw [← hleading] at hstands
  have htook := stands_of_taken hstands htaken
  have hsame := (noncePrefix_of_stands htook hinit).symm.trans hleading
  have hrecord := htook.record (htook.refuses_iff.1 htaken)
  rw [hsame] at hrecord
  exact ⟨_, hrecord, not_fits_mono (Finset.subset_insert _ _) hfits⟩

end PeerReceiver

/-! ## In a cipher -/

namespace NetworkPacketCipher
variable {crypto : PacketCrypto} {c : NetworkPacketCipher} {d : DeviceId} {p : EncryptedNetworkPacket}

/-- Every window of the cipher stands for what it took. -/
def Marked (c : NetworkPacketCipher) : Prop := ∀ d r, c.peers.lookup d = some r → r.Marked

/-- The window for `d`, with the session and the address of `w`, is shut for the packet. -/
def Spent (c : NetworkPacketCipher) (d : DeviceId) (w : PeerReceiver) (p : EncryptedNetworkPacket) : Prop :=
  ∃ r, c.peers.lookup d = some r ∧ r.sessionPublicKey = w.sessionPublicKey ∧ r.ipv4Address = w.ipv4Address ∧ r.Shut p

theorem marked_fanout {r : PeerReceiver} (h : r.Marked) (allowed : Bool) : ({ r with fanoutAllowed := allowed }).Marked := by
  obtain ⟨seen, hseen⟩ := h
  exact ⟨seen, (PeerReceiver.stands_congr rfl rfl rfl rfl).2 hseen⟩

theorem marked_fresh {r : PeerReceiver} (h : r.initialized = false) : r.Marked := ⟨∅, by simp [PeerReceiver.Stands, h]⟩

theorem Marked.step (h : c.Marked) (hl : crypto.Lawful) (hw : c.Wf crypto) (op : CipherOp) : (c.step crypto op).Marked := by
  cases op with
  | updatePeers state =>
    rcases step_updatePeers crypto c state with hstep | hstep
    · rw [hstep]
      exact h
    · intro d r hr
      obtain ⟨peer, key, -, -, rfl⟩ := (hstep.lookup d r).1 hr
      refine marked_fanout ?_ _
      -- the receiver there was, or a new one
      split
      · exact marked_fresh rfl
      · rename_i previous hprevious
        split
        · exact h _ _ hprevious
        · exact marked_fresh rfl
  | encrypt packet =>
    rcases encrypt_cases hl hw packet with ⟨e, heq⟩ | ⟨p, heq, -⟩
    · simpa only [NetworkPacketCipher.step, heq] using h
    · simp only [NetworkPacketCipher.step, heq]
      exact h
  | decrypt p sender =>
    rcases decrypt_cases crypto c p sender with ⟨e, -, heq⟩ | ⟨r, plaintext, hopened, heq⟩
    · simpa only [NetworkPacketCipher.step, heq] using h
    · simp only [NetworkPacketCipher.step, heq]
      obtain ⟨-, hlookup, htaken⟩ := opened_ok hopened
      intro d r' hr'
      rw [Map.lookup_insert] at hr'
      split at hr'
      · cases hr'
        exact ((h sender r hlookup).record htaken).1
      · exact h d r' hr'

theorem Marked.run (h : c.Marked) (hl : crypto.Lawful) (hw : c.Wf crypto) (ops : List CipherOp) : (c.run crypto ops).Marked := by
  induction ops generalizing c with
  | nil => exact h
  | cons op ops ih => exact ih (h.step hl hw op) (wf_step hl hw op)

/-- The state lists `d`, allowed by its policy, with the session and the address of `w`. -/
def ListsPeer (c : NetworkPacketCipher) (state : NetworkPeerState) (d : DeviceId) (w : PeerReceiver) : Prop :=
  ∃ peer key, c.Lists state.policy state.peers peer key ∧ peer.deviceId = d ∧
    key.encryptionPublicKey = w.sessionPublicKey ∧ peer.ipv4Address = w.ipv4Address

theorem ListsPeer.congr {c' : NetworkPacketCipher} {state : NetworkPeerState} {w : PeerReceiver} (h : c.ListsPeer state d w)
    (hs : SameIdentity c c') : c'.ListsPeer state d w := by
  obtain ⟨peer, key, hlists, hrest⟩ := h
  exact ⟨peer, key, hlists.congr hs, hrest⟩

theorem Spent.step {w : PeerReceiver} (h : c.Spent d w p) (hl : crypto.Lawful) (hw : c.Wf crypto) {op : CipherOp}
    (hop : ∀ state, op = .updatePeers state → c.ListsPeer state d w) : (c.step crypto op).Spent d w p := by
  obtain ⟨r, hr, hsession, haddress, hshut⟩ := h
  cases op with
  | updatePeers state =>
    rcases step_updatePeers crypto c state with hstep | hstep
    · rw [hstep]
      exact ⟨r, hr, hsession, haddress, hshut⟩
    · obtain ⟨peer, key, hlists, hdevice, hkey, hpeer⟩ := hop state rfl
      have hkept := receiverFor_kept crypto state.policy (hdevice ▸ hr) (hsession.trans hkey.symm) (haddress.trans hpeer.symm)
      refine ⟨_, (hstep.lookup _ _).2 ⟨peer, key, hlists, hdevice, rfl⟩, ?_⟩
      obtain ⟨seen, hstands, hfits⟩ := hshut
      rw [hkept]
      exact ⟨hsession, haddress, seen, (PeerReceiver.stands_congr rfl rfl rfl rfl).2 hstands, hfits⟩
  | encrypt packet =>
    rcases encrypt_cases hl hw packet with ⟨e, heq⟩ | ⟨q, heq, -⟩
    · simp only [NetworkPacketCipher.step, heq]
      exact ⟨r, hr, hsession, haddress, hshut⟩
    · simp only [NetworkPacketCipher.step, heq]
      exact ⟨r, hr, hsession, haddress, hshut⟩
  | decrypt q sender =>
    rcases decrypt_cases crypto c q sender with ⟨e, -, heq⟩ | ⟨r', plaintext, hopened, heq⟩
    · simp only [NetworkPacketCipher.step, heq]
      exact ⟨r, hr, hsession, haddress, hshut⟩
    · obtain ⟨-, hlookup, htaken⟩ := opened_ok hopened
      simp only [NetworkPacketCipher.step, heq, Spent]
      rw [Map.lookup_insert]
      split
      · rename_i hd
        subst hd
        rw [hr, Option.some.injEq] at hlookup
        subst hlookup
        obtain ⟨-, hsession', haddress'⟩ := encryptionKey_record r q
        exact ⟨_, rfl, hsession'.trans hsession, haddress'.trans haddress, hshut.record htaken⟩
      · exact ⟨r, hr, hsession, haddress, hshut⟩

theorem Spent.run {w : PeerReceiver} (h : c.Spent d w p) (hl : crypto.Lawful) (hw : c.Wf crypto) {ops : List CipherOp}
    (hops : ∀ state, .updatePeers state ∈ ops → c.ListsPeer state d w) : (c.run crypto ops).Spent d w p := by
  induction ops generalizing c with
  | nil => exact h
  | cons op ops ih =>
    have hstep : (c.step crypto op).Spent d w p := h.step hl hw fun state heq => hops state (by simp [heq])
    refine ih hstep (wf_step hl hw op) fun state hmem => ?_
    exact (hops state (by simp [hmem])).congr (sameIdentity_step hl hw op)

/-- What was decrypted is spent. -/
theorem spent_decrypt (h : c.Marked) {sender : DeviceId} {plaintext : Bytes} {c' : NetworkPacketCipher}
    (hdecrypt : decrypt crypto p sender c = (.ok plaintext, c')) : ∃ w, c'.Spent sender w p := by
  rcases decrypt_cases crypto c p sender with ⟨e, -, heq⟩ | ⟨r, plaintext', hopened, heq⟩
  · rw [heq] at hdecrypt
    cases hdecrypt
  · rw [heq] at hdecrypt
    cases hdecrypt
    obtain ⟨-, hlookup, htaken⟩ := opened_ok hopened
    exact ⟨r.record p, r.record p, by simp, rfl, rfl, ((h sender r hlookup).record htaken).2⟩

theorem Spent.congr {w : PeerReceiver} {q : EncryptedNetworkPacket} (h : c.Spent d w p) (hnonce : q.nonce = p.nonce)
    (hsequence : q.sequence = p.sequence) : c.Spent d w q := by
  obtain ⟨r, hr, hsession, haddress, hshut⟩ := h
  exact ⟨r, hr, hsession, haddress, hshut.congr hnonce hsequence⟩

theorem Spent.refused {w : PeerReceiver} (h : c.Spent d w p) : ∃ e, decrypt crypto p d c = (.error e, c) := by
  obtain ⟨r, hr, -, -, hshut⟩ := h
  rcases decrypt_cases crypto c p d with ⟨e, -, heq⟩ | ⟨r', plaintext, hopened, heq⟩
  · exact ⟨e, heq⟩
  · obtain ⟨-, hlookup, htaken⟩ := opened_ok hopened
    rw [hr, Option.some.injEq] at hlookup
    subst hlookup
    rw [hshut.refuses] at htaken
    cases htaken

end NetworkPacketCipher

/-! ## In a bridge -/

namespace VirtualPacketBridge
variable {crypto : PacketCrypto} {b : VirtualPacketBridge} {n : NetworkId} {d : DeviceId} {p : EncryptedNetworkPacket}

theorem marked_run (hl : crypto.Lawful) (events : ℕ → BridgeInputs × BridgeEvent) (k : ℕ) {s : Session}
    (hs : (run crypto events k).sessions.lookup n = some s) : s.cipher.Marked := by
  induction k generalizing s with
  | zero => cases hs
  | succ k ih =>
    have hw := wf_run hl events k
    obtain ⟨new, -, hstepped⟩ := stepped hl hw (events k) n
    have hnext : ((run crypto events k).step crypto (events k)).sessions.lookup n = some s := hs
    rw [hnext] at hstepped
    generalize hx : (run crypto events k).sessions.lookup n = x at hstepped
    cases hstepped with
    | moved hmoved =>
      obtain ⟨ops, -, hcipher, -⟩ := hmoved.ops
      rw [hcipher]
      exact (ih hx).run hl (hw n _ hx).cipher ops
    | created i he hchecked hmem hid hnew hstate hcreated hsent =>
      rename_i identity networks network
      obtain ⟨c, hmake, hupdate, -⟩ := created_ok hcreated
      obtain ⟨hwf, -, hpeers⟩ := NetworkPacketCipher.make_ok hmake
      have hempty : c.Marked := by
        intro d r hr
        rw [hpeers] at hr
        cases hr
      have hstep := hempty.step hl hwf (.updatePeers network.peers)
      simpa only [NetworkPacketCipher.step, hupdate] using hstep

/-- The window for `d` in network `n` is shut for the packet. -/
def Spent (b : VirtualPacketBridge) (n : NetworkId) (d : DeviceId) (p : EncryptedNetworkPacket) : Prop :=
  ∃ s w, b.sessions.lookup n = some s ∧ s.cipher.Spent d w p

/-- The snapshot lists the network of a session under its key, own address and own signed key, and the peer `d`, allowed
by the policy, under the session key and the address it has. -/
def ListsWindow (s : Session) (n : NetworkId) (d : DeviceId) (identity : PacketIdentitySnapshot)
    (networks : List ActiveNetworkPacketState) : Prop :=
  ∃ network ∈ networks, network.peers.networkId = n ∧ keepsSession s identity network ∧
    ∀ r, s.cipher.peers.lookup d = some r → s.cipher.ListsPeer network.peers d r

/-- The event keeps the window for `d` in network `n`. -/
def Keeps (n : NetworkId) (d : DeviceId) (b : VirtualPacketBridge) : BridgeEvent → Prop
  | .clear => False
  | .synchronize none _ => False
  | .synchronize (some identity) networks => checkNetworks [] networks = .ok () →
      ∀ s, b.sessions.lookup n = some s → ListsWindow s n d identity networks
  | _ => True

/-- A snapshot that passes the checks lists each network once. -/
theorem eq_of_networkId {networks : List ActiveNetworkPacketState} {network other : ActiveNetworkPacketState}
    (hchecked : checkNetworks [] networks = .ok ()) (hnetwork : network ∈ networks) (hother : other ∈ networks)
    (hid : network.peers.networkId = other.peers.networkId) : network = other :=
  List.inj_on_of_nodup_map (checkNetworks_ok hchecked).1 hnetwork hother hid

theorem not_drops {e : BridgeEvent} (h : Keeps n d b e) {s : Session} (hs : b.sessions.lookup n = some s) : ¬ Drops n e := by
  intro hdrops
  cases e with
  | clear => exact h
  | synchronize identity networks =>
    cases identity with
    | none => exact h
    | some identity =>
      obtain ⟨hchecked, hother⟩ := hdrops
      obtain ⟨network, hmem, hid, -⟩ := h hchecked s hs
      exact hother network hmem hid
  | _ => exact hdrops

theorem Spent.step (h : Spent b n d p) (hl : crypto.Lawful) (hw : Wf crypto b) {e : BridgeInputs × BridgeEvent}
    (he : Keeps n d b e.2) : Spent (b.step crypto e) n d p := by
  obtain ⟨s, w, hs, hspent⟩ := h
  obtain ⟨new, -, hstepped⟩ := stepped hl hw e n
  rw [hs] at hstepped
  generalize hy : (b.step crypto e).sessions.lookup n = y at hstepped
  cases hstepped with
  | moved hmoved =>
    rename_i t
    obtain ⟨ops, hops, hcipher, -⟩ := hmoved.ops
    refine ⟨t, w, hy, ?_⟩
    rw [hcipher]
    refine hspent.run hl (hw n s hs).cipher fun state hmem => ?_
    obtain ⟨identity, networks, network, hsync, hchecked, hnetwork, hid, hstate, -⟩ := hops _ hmem
    rw [hsync] at he
    obtain ⟨other, hother, hid', -, hlists⟩ := he hchecked s hs
    rw [← hstate, eq_of_networkId hchecked hnetwork hother (hid.trans hid'.symm)]
    obtain ⟨r, hr, hsession, haddress, -⟩ := hspent
    obtain ⟨peer, key, hpeer, hdevice, hkey, hipv4⟩ := hlists r hr
    exact ⟨peer, key, hpeer, hdevice, hkey.trans hsession, hipv4.trans haddress⟩
  | dropped hdrops hsent => exact absurd hdrops (not_drops he hs)
  | created i hsync hchecked hmem hid hnew hstate hcreated hsent =>
    rw [hsync] at he
    obtain ⟨network, hnetwork, hid', hkeeps, -⟩ := he hchecked s hs
    have heq := eq_of_networkId hchecked hmem hnetwork (hid.trans hid'.symm)
    exact absurd (heq ▸ hkeeps) (hnew s rfl)

/-! ## Deliveries -/

/-- The calls of the inject handler so far. -/
def injections (b : VirtualPacketBridge) : List Bytes := b.calls.filterMap fun call =>
  match call with
  | .inject packet => some packet
  | .send _ => none

/-- The event leads to an injection. -/
def Injects (crypto : PacketCrypto) (b : VirtualPacketBridge) (e : BridgeInputs × BridgeEvent) : Prop :=
  b.injections.length < (b.step crypto e).injections.length

instance (crypto : PacketCrypto) (b : VirtualPacketBridge) (e : BridgeInputs × BridgeEvent) :
    Decidable (Injects crypto b e) := inferInstanceAs (Decidable (_ < _))

/-- What the bridge holds for a delivery: the network key and its epoch, its own session key, and that of the sender. -/
def keysFor (b : VirtualPacketBridge) (delivery : ForwardedNetworkPacket) :
    Option (NetworkKeySnapshot × EncryptionPublicKey × EncryptionPublicKey) := do
  let s ← b.sessions.lookup delivery.packet.networkId
  let r ← s.cipher.peers.lookup delivery.senderDeviceId
  pure (s.key, s.ownSignedKey.encryptionPublicKey, r.sessionPublicKey)

/-- The second delivery, made in `b'`, replays the first, made in `b`. -/
structure Replays (b : VirtualPacketBridge) (first : ForwardedNetworkPacket) (b' : VirtualPacketBridge)
    (second : ForwardedNetworkPacket) : Prop where
  network : second.packet.networkId = first.packet.networkId
  sender : second.senderDeviceId = first.senderDeviceId
  sequence : second.packet.sequence = first.packet.sequence
  nonce : second.packet.nonce = first.packet.nonce
  keys : b'.keysFor second = b.keysFor first

/-- Only a packet that was decrypted is injected, and then it is spent. -/
theorem spent_of_injects (hl : crypto.Lawful) (hw : Wf crypto b) (hmarked : ∀ n s, b.sessions.lookup n = some s → s.cipher.Marked)
    {inputs : BridgeInputs} {delivery : ForwardedNetworkPacket} (h : Injects crypto b (inputs, .inbound delivery)) :
    Spent (b.step crypto (inputs, .inbound delivery)) delivery.packet.networkId delivery.senderDeviceId delivery.packet := by
  unfold Injects at h
  simp only [VirtualPacketBridge.step] at h ⊢
  rcases inbound_cases hl hw inputs delivery with ⟨-, heq⟩ | ⟨s, hs, ⟨e, -, heq⟩ | ⟨plaintext, c, hdecrypt, new, -, hn⟩⟩
  · rw [heq] at h
    exact absurd h (lt_irrefl _)
  · rw [heq] at h
    exact absurd h (lt_irrefl _)
  · obtain ⟨w, hspent⟩ := NetworkPacketCipher.spent_decrypt (hmarked _ s hs) hdecrypt
    have hcipher : c = s.cipher.step crypto (.decrypt delivery.packet delivery.senderDeviceId) :=
      (congrArg Prod.snd hdecrypt).symm
    have hwf : c.Wf crypto := hcipher ▸ NetworkPacketCipher.wf_step hl (hw _ s hs).cipher _
    have hcarried := hn delivery.packet.networkId
    dsimp only at hcarried
    rw [AList.lookup_insert] at hcarried
    cases ht : (inbound crypto inputs delivery b).2.sessions.lookup delivery.packet.networkId with
    | none =>
      rw [ht] at hcarried
      exact hcarried.elim
    | some t =>
      rw [ht] at hcarried
      obtain ⟨ps, -, hrun, -⟩ := hcarried
      refine ⟨t, w, ht, ?_⟩
      rw [hrun]
      refine hspent.run hl hwf fun state hmem => ?_
      obtain ⟨p, -, hp⟩ := List.mem_map.1 hmem
      cases hp

theorem Spent.not_injects {delivery : ForwardedNetworkPacket} (hl : crypto.Lawful) (hw : Wf crypto b) (inputs : BridgeInputs)
    (h : Spent b delivery.packet.networkId delivery.senderDeviceId delivery.packet) :
    ¬ Injects crypto b (inputs, .inbound delivery) := by
  obtain ⟨s, w, hs, hspent⟩ := h
  have hrefused : ∃ e, NetworkPacketCipher.decrypt crypto delivery.packet delivery.senderDeviceId s.cipher = (.error e, s.cipher) :=
    hspent.refused
  obtain ⟨e, hrefused⟩ := hrefused
  unfold Injects
  simp only [VirtualPacketBridge.step]
  rcases inbound_cases hl hw inputs delivery with ⟨hnone, -⟩ | ⟨s', hs', ⟨e', -, heq⟩ | ⟨plaintext, c, hdecrypt, -⟩⟩
  · rw [hs] at hnone
    cases hnone
  · rw [heq]
    exact lt_irrefl _
  · rw [hs, Option.some.injEq] at hs'
    subst hs'
    rw [hrefused] at hdecrypt
    cases hdecrypt

/-- In every run: if each event between two deliveries keeps the sender's window, a replay is not injected again. -/
theorem replay_not_injected (crypto : PacketCrypto) (hl : crypto.Lawful) (events : ℕ → BridgeInputs × BridgeEvent) (i j : ℕ)
    (hij : i < j) (first second : ForwardedNetworkPacket) (hfirst : (events i).2 = .inbound first)
    (hsecond : (events j).2 = .inbound second) (hreplays : Replays (run crypto events i) first (run crypto events j) second)
    (hkeeps : ∀ k, i < k → k < j →
      Keeps first.packet.networkId first.senderDeviceId (run crypto events k) (events k).2) :
    ¬ (Injects crypto (run crypto events i) (events i) ∧ Injects crypto (run crypto events j) (events j)) := by
  rintro ⟨hinjects, hagain⟩
  have hfirst' : events i = ((events i).1, .inbound first) := by rw [← hfirst]
  have hsecond' : events j = ((events j).1, .inbound second) := by rw [← hsecond]
  rw [hfirst'] at hinjects
  rw [hsecond'] at hagain
  -- the packet is spent from the first delivery on
  have hspent : ∀ k, i < k → k ≤ j →
      Spent (run crypto events k) first.packet.networkId first.senderDeviceId first.packet := by
    intro k hik
    induction k, hik using Nat.le_induction with
    | base =>
      intro _
      have hstep := spent_of_injects hl (wf_run hl events i) (fun n s hs => marked_run hl events i hs) hinjects
      rw [← hfirst'] at hstep
      exact hstep
    | succ k hik ih =>
      intro hkj
      exact (ih (by omega)).step hl (wf_run hl events k) (hkeeps k hik hkj)
  obtain ⟨s, w, hs, hcipher⟩ := hspent j hij le_rfl
  refine Spent.not_injects hl (wf_run hl events j) (events j).1 ⟨s, w, ?_, ?_⟩ hagain
  · rw [hreplays.network]
    exact hs
  · rw [hreplays.sender]
    exact hcipher.congr hreplays.nonce hreplays.sequence

open NetworkPacketCipher

/-- The network of the sample ciphers, as device `d` with address `own` sees it. -/
def sampleSnapshot (d : DeviceId) (own : UInt32) (peer : DeviceId) (address : UInt32) (revision : UInt64) : BridgeEvent :=
  .synchronize (some { deviceId := d, signedKey := sampleKey d })
    [{ peers := { sampleState own peer address with revision }, key := { epoch := 1, key := 5 } }]

/-- A packet with a right checksum. -/
def samplePing : Bytes := [0x45, 0, 0, 20, 0, 0, 0, 0, 64, 17, 0x66, 0x57, 10, 64, 0, 1, 10, 64, 0, 2]

/-- The first packet of the sample sender. -/
def sampleDelivery : ForwardedNetworkPacket :=
  { senderDeviceId := 2, packet := { samplePacket 1 with ciphertext := samplePing, tag := 0x401166570a40001414800015 } }

/-- The snapshot is refreshed between the two deliveries. -/
def refreshedRun : ℕ → BridgeInputs × BridgeEvent
  | 0 => ({}, sampleSnapshot 3 0x0a400002 2 0x0a400001 1)
  | 1 => ({}, .inbound sampleDelivery)
  | 2 => ({}, sampleSnapshot 3 0x0a400002 2 0x0a400001 2)
  | _ => ({}, .inbound sampleDelivery)

theorem replay_not_injected_refreshed :
    Injects plainPacketCrypto (run plainPacketCrypto refreshedRun 1) (refreshedRun 1) ∧
      ¬ Injects plainPacketCrypto (run plainPacketCrypto refreshedRun 3) (refreshedRun 3) := by
  have hfirst : Injects plainPacketCrypto (run plainPacketCrypto refreshedRun 1) (refreshedRun 1) := by decide +kernel
  refine ⟨hfirst, fun hagain => ?_⟩
  refine replay_not_injected plainPacketCrypto plainPacketCrypto_lawful refreshedRun 1 3 (by decide) sampleDelivery
    sampleDelivery rfl rfl ⟨rfl, rfl, rfl, rfl, by decide +kernel⟩ ?_ ⟨hfirst, hagain⟩
  intro k h1 h3
  obtain rfl : k = 2 := by omega
  intro _ s hs
  -- the second snapshot differs from the first in its revision only
  have hlisted : ((run plainPacketCrypto refreshedRun 2).sessions.lookup sampleDelivery.packet.networkId).all (fun s =>
      keepsSession s { deviceId := 3, signedKey := sampleKey 3 }
        { peers := { sampleState 0x0a400002 2 0x0a400001 with revision := 2 }, key := { epoch := 1, key := 5 } } &&
      (s.cipher.peers.lookup 2).all fun r => r.sessionPublicKey = 12 && r.ipv4Address = 0x0a400001) = true := by
    decide +kernel
  rw [hs] at hlisted
  simp only [Option.all_some, Bool.and_eq_true] at hlisted
  refine ⟨_, List.mem_singleton.2 rfl, rfl, hlisted.1, fun r hr => ?_⟩
  have hr' : s.cipher.peers.lookup 2 = some r := hr
  rw [hr'] at hlisted
  simp only [Option.all_some, Bool.and_eq_true, decide_eq_true_eq] at hlisted
  exact ⟨_, sampleKey 2, ⟨List.mem_singleton.2 rfl, rfl, rfl⟩, rfl, hlisted.2.1.symm, hlisted.2.2.symm⟩

/-- The receiver loses its sessions between the two deliveries. -/
def clearedRun : ℕ → BridgeInputs × BridgeEvent
  | 0 => ({}, sampleSnapshot 3 0x0a400002 2 0x0a400001 1)
  | 1 => ({}, .inbound sampleDelivery)
  | 2 => ({}, .clear)
  | 3 => ({}, sampleSnapshot 3 0x0a400002 2 0x0a400001 1)
  | _ => ({}, .inbound sampleDelivery)

/-- A replay is injected again after `clear`. -/
theorem replay_injected_after_clear :
    ¬ ∀ (crypto : PacketCrypto), crypto.Lawful → ∀ (events : ℕ → BridgeInputs × BridgeEvent) (i j : ℕ), i < j →
      ∀ first second, (events i).2 = .inbound first → (events j).2 = .inbound second →
        Replays (run crypto events i) first (run crypto events j) second →
        ¬ (Injects crypto (run crypto events i) (events i) ∧ Injects crypto (run crypto events j) (events j)) := by
  intro h
  refine h plainPacketCrypto plainPacketCrypto_lawful clearedRun 1 4 (by decide) sampleDelivery sampleDelivery rfl rfl
    ⟨rfl, rfl, rfl, rfl, by decide +kernel⟩ ⟨by decide +kernel, by decide +kernel⟩

end VirtualPacketBridge

end LanLink
