import LanLink.Auth.Admission
import LanLink.Network.RoutedNetwork
import LanLink.Transport.BridgeRuns
/-!
# What a session knows of its network

In every run of a bridge the cipher of a session has the receivers of the peer
state the session holds, and the state passes the checks of its encoder. After
`synchronize` has returned, the sessions are the networks of the snapshot, and
what comes in or goes out does not change that.
-/
open LanLink.Lib

namespace LanLink

/-! ## Ciphers and peer states -/

namespace NetworkPacketCipher
variable {crypto : PacketCrypto} {c c' : NetworkPacketCipher} {state : NetworkPeerState}

/-- The cipher has the receivers of the peers that `state` lists. -/
structure Reflects (c : NetworkPacketCipher) (state : NetworkPeerState) : Prop where
  managed : c.managed = state.policy.any (·.managed)
  subnet : c.subnetAddress = state.subnetAddress
  prefixLength : c.prefixLength = 24
  receivers : ∀ d address session,
    (∃ r, c.peers.lookup d = some r ∧ r.ipv4Address = address ∧ r.sessionPublicKey = session) ↔
    ∃ peer key, c.Lists state.policy state.peers peer key ∧ peer.deviceId = d ∧ peer.ipv4Address = address ∧
      key.encryptionPublicKey = session

theorem sessionPublicKey_receiverFor (policy : Option NetworkPolicy) (peer : NetworkPeer) (key : SignedDeviceKey) :
    (c.receiverFor crypto policy peer key).sessionPublicKey = key.encryptionPublicKey := by
  unfold receiverFor
  dsimp only
  split
  · rfl
  · split
    · rename_i hsame
      exact hsame.1
    · rfl

theorem reflects_updatePeers (h : c.updatePeers crypto state = .ok c') : c'.Reflects state := by
  have hup := updatePeers_ok h
  refine ⟨managed_updatePeers h, hup.subnet, hup.prefixed, fun d address session => ?_⟩
  constructor
  · rintro ⟨r, hr, rfl, rfl⟩
    obtain ⟨peer, key, hlists, rfl, rfl⟩ := (hup.lookup d r).1 hr
    refine ⟨peer, key, hlists.congr hup.same, rfl, ?_, ?_⟩
    · exact (ipv4Address_receiverFor _ _ _).symm
    · exact (sessionPublicKey_receiverFor _ _ _).symm
  · rintro ⟨peer, key, hlists, rfl, rfl, rfl⟩
    have hback : SameIdentity c' c :=
      ⟨hup.same.networkId.symm, hup.same.keyEpoch.symm, hup.same.networkKey.symm, hup.same.ownDeviceId.symm,
        hup.same.ownSessionPublicKey.symm, hup.same.ownIpv4Address.symm, hup.same.outgoingKey.symm,
        hup.same.outgoingNoncePrefix.symm⟩
    exact ⟨_, (hup.lookup _ _).2 ⟨peer, key, hlists.congr hback, rfl, rfl⟩, ipv4Address_receiverFor _ _ _,
      sessionPublicKey_receiverFor _ _ _⟩

/-- A packet in or out changes no address, session or policy. -/
theorem Reflects.step (h : c.Reflects state) (hl : crypto.Lawful) (hw : c.Wf crypto) (op : CipherOp)
    (hop : ∀ s, op ≠ .updatePeers s) : (c.step crypto op).Reflects state := by
  cases op with
  | updatePeers s => exact absurd rfl (hop s)
  | encrypt packet =>
    rcases encrypt_cases hl hw packet with ⟨e, he⟩ | ⟨p, hp, -⟩
    · simpa only [NetworkPacketCipher.step, he] using h
    · simp only [NetworkPacketCipher.step, hp]
      exact ⟨h.managed, h.subnet, h.prefixLength, h.receivers⟩
  | decrypt p d =>
    rcases decrypt_cases crypto c p d with ⟨e, -, he⟩ | ⟨r, plaintext, hopened, hp⟩
    · simpa only [NetworkPacketCipher.step, he] using h
    · simp only [NetworkPacketCipher.step, hp]
      refine ⟨h.managed, h.subnet, h.prefixLength, fun e address session => ?_⟩
      have hr := (opened_ok hopened).2.1
      have hsame : (r.record p).ipv4Address = r.ipv4Address ∧ (r.record p).sessionPublicKey = r.sessionPublicKey := by
        unfold PeerReceiver.record
        split
        · exact ⟨rfl, rfl⟩
        · dsimp only
          split <;> exact ⟨rfl, rfl⟩
      refine Iff.trans ?_ (h.receivers e address session)
      simp only [Map.lookup_insert]
      split
      · rename_i heq
        subst heq
        simp [hr, hsame.1, hsame.2]
      · rfl

theorem Reflects.run (h : c.Reflects state) (hl : crypto.Lawful) (hw : c.Wf crypto) {ops : List CipherOp}
    (hops : ∀ op ∈ ops, ∀ s, op ≠ .updatePeers s) : (c.run crypto ops).Reflects state := by
  induction ops generalizing c with
  | nil => exact h
  | cons op ops ih =>
    exact ih (h.step hl hw op (hops op List.mem_cons_self)) (wf_step hl hw op) fun o ho => hops o (List.mem_cons_of_mem _ ho)

end NetworkPacketCipher

/-! ## Valid peer states -/

section
variable {state : NetworkPeerState}

theorem requirePeerState_ok (h : requirePeerState state = .ok ()) :
    validPeerState state ∧ ∀ policy, state.policy = some policy → Encodable policy := by
  simp only [requirePeerState, bind_eq_ok, check_eq_ok, exists_const] at h
  refine ⟨h.1, fun policy hpolicy => ?_⟩
  have hcheck := h.2
  rw [hpolicy] at hcheck
  exact check_eq_ok.1 hcheck

/-- The overlay addresses of a state are hosts of one `/24` of the pool, and no two are the same. -/
theorem valid_own (h : requirePeerState state = .ok ()) : state.prefixLength = 24 ∧ Placed state.subnetAddress state.ownAddress :=
  placed_of_validPeerState (requirePeerState_ok h).1

theorem valid_peer (h : requirePeerState state = .ok ()) {peer : NetworkPeer} (hpeer : peer ∈ state.peers) :
    Placed state.subnetAddress peer.ipv4Address ∧ peer.ipv4Address ≠ state.ownAddress ∧
      ∀ other ∈ state.peers, other.ipv4Address = peer.ipv4Address → other = peer := by
  have hvalid := (requirePeerState_ok h).1
  obtain ⟨hge, hlt, haligned, -⟩ := (valid_own h).2
  simp only [validPeerState, Bool.and_eq_true, decide_eq_true_eq, List.all_eq_true, List.nodup_cons] at hvalid
  obtain ⟨⟨⟨-, hall⟩, -⟩, hown, hnodup⟩ := hvalid
  have hhost := (hall peer hpeer).2
  have hadd : (state.subnetAddress + 255).toNat = state.subnetAddress.toNat + 255 := by
    rw [UInt32.toNat_add]
    exact Nat.mod_eq_of_lt (by change _ + 255 < _; omega)
  simp only [hostAddress, Bool.and_eq_true, decide_eq_true_eq, UInt32.lt_iff_toNat_lt, hadd] at hhost
  refine ⟨⟨hge, hlt, haligned, hhost⟩, fun heq => hown ?_, fun other hother heq => ?_⟩
  · rw [← heq]
    exact List.mem_map_of_mem hpeer
  · exact List.inj_on_of_nodup_map hnodup hother hpeer heq

end

/-! ## Sessions -/

/-- The state a session holds is one its cipher was given. -/
structure SessionAgrees (crypto : PacketCrypto) (s : Session) : Prop where
  valid : requirePeerState s.peers = .ok ()
  verified : verifySignedDeviceKey crypto.toCrypto s.ownSignedKey s.ownDeviceId
  reflects : s.cipher.Reflects s.peers

namespace VirtualPacketBridge
open Session NetworkPacketCipher

variable {crypto : PacketCrypto} {b b' : VirtualPacketBridge}

def Agrees (crypto : PacketCrypto) (b : VirtualPacketBridge) : Prop :=
  ∀ n s, b.sessions.lookup n = some s → SessionAgrees crypto s

theorem valid_of_updatePeers {c c' : NetworkPacketCipher} {state : NetworkPeerState} (h : c.updatePeers crypto state = .ok c') :
    requirePeerState state = .ok () := by
  simp only [updatePeers, bind_eq_ok] at h
  obtain ⟨-, -, u, hvalid, -⟩ := h
  exact hvalid

theorem agrees_refreshed {s t : Session} {state : NetworkPeerState} (h : refreshed crypto s state = .ok t)
    (hs : SessionAgrees crypto s) : SessionAgrees crypto t ∧ t.peers = state ∧ t.ownDeviceId = s.ownDeviceId := by
  unfold refreshed at h
  split at h
  · rename_i heq
    cases h
    exact ⟨hs, heq, rfl⟩
  · simp only [bind_eq_ok, Except.ok.injEq] at h
    obtain ⟨c, hc, rfl⟩ := h
    exact ⟨⟨valid_of_updatePeers hc, hs.verified, reflects_updatePeers hc⟩, rfl, rfl⟩

theorem agrees_created {noncePrefix : BitVec 64} {identity : PacketIdentitySnapshot} {network : ActiveNetworkPacketState}
    {t : Session} (h : created crypto noncePrefix identity network = .ok t) : SessionAgrees crypto t := by
  obtain ⟨c, hmake, hupdate, -, hsigned, hdevice, hpeers⟩ := created_ok h
  have hverified : verifySignedDeviceKey crypto.toCrypto identity.signedKey identity.deviceId := by
    simp only [make, bind_eq_ok, check_eq_ok, exists_const, not_or, not_not] at hmake
    exact hmake.1.2.2.1
  refine ⟨?_, ?_, ?_⟩
  · rw [hpeers]
    exact valid_of_updatePeers hupdate
  · rw [hsigned, hdevice]
    exact hverified
  · rw [hpeers]
    exact reflects_updatePeers hupdate

theorem Carries.agrees (h : Carries crypto b b') (hl : crypto.Lawful) (hw : Wf crypto b) (ha : Agrees crypto b) :
    Agrees crypto b' := by
  obtain ⟨new, -, hn⟩ := h
  intro n t ht
  have hcarried := hn n
  rw [ht] at hcarried
  cases hs : b.sessions.lookup n with
  | none =>
    rw [hs] at hcarried
    exact hcarried.elim
  | some s =>
    rw [hs] at hcarried
    obtain ⟨ps, hsame, hcipher, -⟩ := hcarried
    obtain ⟨hvalid, hverified, hreflects⟩ := ha n s hs
    refine ⟨?_, ?_, ?_⟩
    · rw [hsame.peers]
      exact hvalid
    · rw [hsame.ownSignedKey, hsame.ownDeviceId]
      exact hverified
    · rw [hsame.peers, hcipher]
      refine hreflects.run hl (hw n s hs).cipher ?_
      rintro op hop state rfl
      obtain ⟨p, -, hp⟩ := List.mem_map.1 hop
      cases hp

/-- What `decrypt` leaves of a session is a session like it. -/
theorem wf_decrypted {n : NetworkId} {s : Session} (hl : crypto.Lawful) (hw : Wf crypto b) (hs : b.sessions.lookup n = some s)
    (p : EncryptedNetworkPacket) (d : DeviceId) :
    Wf crypto { b with sessions := b.sessions.insert n { s with cipher := s.cipher.step crypto (.decrypt p d) } } := by
  intro m t ht
  dsimp only at ht
  rw [Map.lookup_insert] at ht
  split at ht
  · rename_i heq
    cases ht
    subst heq
    exact sessionWf_of_same hl (hw _ s hs) ⟨rfl, rfl, rfl, rfl⟩ [.decrypt p d] rfl
  · exact hw m t ht

theorem agrees_decrypted {n : NetworkId} {s : Session} (hl : crypto.Lawful) (hw : Wf crypto b) (ha : Agrees crypto b)
    (hs : b.sessions.lookup n = some s) (p : EncryptedNetworkPacket) (d : DeviceId) :
    Agrees crypto { b with sessions := b.sessions.insert n { s with cipher := s.cipher.step crypto (.decrypt p d) } } := by
  intro m t ht
  dsimp only at ht
  rw [Map.lookup_insert] at ht
  split at ht
  · cases ht
    obtain ⟨hvalid, hverified, hreflects⟩ := ha n s hs
    exact ⟨hvalid, hverified, hreflects.step hl (hw n s hs).cipher (.decrypt p d) (by simp)⟩
  · exact ha m t ht

theorem agrees_step (hl : crypto.Lawful) (hw : Wf crypto b) (ha : Agrees crypto b) (e : BridgeInputs × BridgeEvent) :
    Agrees crypto (b.step crypto e) := by
  obtain ⟨inputs, e⟩ := e
  cases e with
  | synchronize identity networks =>
    intro n t ht
    obtain ⟨-, hcases⟩ := synchronize_cases crypto inputs identity networks b n
    simp only [step] at ht
    rw [ht] at hcases
    rcases hcases with hsame | ⟨hnone, -⟩ | ⟨i, -, -, hturned⟩
    · exact ha n t hsame.symm
    · cases hnone
    · generalize b.sessions.lookup n = before, hx : b.sessions.lookup n = before' at hturned
      cases hturned with
      | kept hmem hid hbefore hkeeps hrefreshed => exact (agrees_refreshed hrefreshed (ha n _ (hx.trans hbefore))).1
      | created i hmem hid hnew hstate hcreated => exact agrees_created hcreated
  | clear =>
    intro n t ht
    cases ht
  | inbound delivery =>
    simp only [step]
    rcases inbound_cases hl hw inputs delivery with ⟨-, heq⟩ | ⟨s, hs, ⟨e, -, heq⟩ | ⟨plaintext, c, hdecrypt, hcarries⟩⟩
    · rw [heq]
      exact ha
    · rw [heq]
      intro m t ht
      dsimp only at ht
      rw [Map.lookup_insert] at ht
      split at ht
      · cases ht
        exact ha _ s hs
      · exact ha m t ht
    · have hc : c = s.cipher.step crypto (.decrypt delivery.packet delivery.senderDeviceId) := (congrArg Prod.snd hdecrypt).symm
      subst hc
      exact hcarries.agrees hl (wf_decrypted hl hw hs _ _) (agrees_decrypted hl hw ha hs _ _)
  | setMtu mtu => exact (carries_step hl hw inputs (by simp) (by simp) (by simp)).agrees hl hw ha
  | setRoutingOptions acceptRoutes forward => exact (carries_step hl hw inputs (by simp) (by simp) (by simp)).agrees hl hw ha
  | synchronizeMulticast groups => exact (carries_step hl hw inputs (by simp) (by simp) (by simp)).agrees hl hw ha
  | outbound packet => exact (carries_step hl hw inputs (by simp) (by simp) (by simp)).agrees hl hw ha

theorem agrees_run (hl : crypto.Lawful) (events : ℕ → BridgeInputs × BridgeEvent) (k : ℕ) : Agrees crypto (run crypto events k) := by
  induction k with
  | zero =>
    intro n s hs
    cases hs
  | succ k ih => exact agrees_step hl (wf_run hl events k) ih _

/-! ## The MTU -/

section
variable {α : Type}

theorem leaves_onSession (n : NetworkId) (default : α) (x : SessionCall α) : Action.Leaves mtu (onSession n default x) := by
  intro b
  unfold onSession
  split <;> rfl

theorem leaves_synchronizeMulticast (groups : Option (List UInt32)) (ns : List NetworkId) :
    Action.Leaves mtu (synchronizeMulticast groups ns) := by
  induction ns with
  | nil => exact .pure ()
  | cons n ns ih => exact .bind (leaves_onSession n () _) fun _ => ih

theorem leaves_outboundRouted (packet : Bytes) : Action.Leaves mtu (outboundRouted crypto packet) := by
  refine .bind (.lift _) fun h => .bind (.gets _) fun route => ?_
  rcases route with _ | ⟨n, _ | destination⟩
  · exact .pure false
  · exact .pure true
  · exact .bind (.gets _) fun _ => .bind (leaves_onSession n () _) fun _ => .pure true

theorem leaves_chooseSession (inputs : BridgeInputs) (limit : ℕ) (packet : Bytes) (ns : List NetworkId) :
    Action.Leaves mtu (chooseSession crypto inputs limit packet ns) := by
  induction ns with
  | nil => exact .pure none
  | cons n ns ih =>
    refine .bind (leaves_onSession n none _) fun taken => ?_
    rcases taken with _ | _ | _
    · exact ih
    · exact .pure none
    · exact .pure (some n)

theorem leaves_outbound (inputs : BridgeInputs) (packet : Bytes) : Action.Leaves mtu (outbound crypto inputs packet) := by
  refine .ite (.pure ()) (.bind (leaves_outboundRouted packet) fun routed => .ite (.pure ()) ?_)
  refine .bind (.lift _) fun header => .bind (.gets _) fun _ => .bind (.gets _) fun ids => ?_
  refine .bind (leaves_chooseSession inputs _ packet ids) fun chosen => ?_
  rcases chosen with _ | n
  · exact .pure ()
  · exact leaves_onSession n () _

theorem leaves_synchronizeNetwork (inputs : BridgeInputs) (identity : PacketIdentitySnapshot) (updated : Map NetworkId Session)
    (i : ℕ) (network : ActiveNetworkPacketState) :
    Action.Leaves mtu (synchronizeNetwork crypto inputs identity updated i network) := by
  refine .bind (.lift _) fun _ => .bind (.gets _) fun old => ?_
  split
  · refine .bind (.lift _) fun session => .bind (.modify fun _ => rfl) fun _ => .pure _
  · refine .bind (.lift _) fun session => .ite (.throw _) (.pure _)

theorem leaves_synchronizeNetworks (inputs : BridgeInputs) (identity : PacketIdentitySnapshot) (updated : Map NetworkId Session)
    (i : ℕ) (networks : List ActiveNetworkPacketState) :
    Action.Leaves mtu (synchronizeNetworks crypto inputs identity updated i networks) := by
  induction networks generalizing updated i with
  | nil => exact .pure updated
  | cons network networks ih => exact .bind (leaves_synchronizeNetwork inputs identity updated i network) fun _ => ih _ _

theorem leaves_synchronize (inputs : BridgeInputs) (identity : Option PacketIdentitySnapshot)
    (networks : List ActiveNetworkPacketState) : Action.Leaves mtu (synchronize crypto inputs identity networks) := by
  rcases identity with _ | identity
  · exact .modify fun _ => rfl
  · refine .bind (.lift _) fun _ => .bind (leaves_synchronizeNetworks inputs identity ∅ 0 networks) fun _ => ?_
    exact .modify fun _ => rfl

end

theorem mtu_step (h : 68 ≤ b.mtu) (e : BridgeInputs × BridgeEvent) : 68 ≤ (b.step crypto e).mtu := by
  obtain ⟨inputs, e⟩ := e
  cases e with
  | synchronize identity networks => exact (leaves_synchronize inputs identity networks b).ge.trans' h
  | clear => exact h
  | setMtu mtu =>
    have hpost : Action.Post (setMtu mtu) b fun _ b' => 68 ≤ b'.mtu := by
      refine Action.post_lift_bind (fun _ hok => ?_) fun _ => h
      rw [check_eq_ok] at hok
      exact hok
    exact hpost
  | setRoutingOptions acceptRoutes forward => exact h
  | synchronizeMulticast groups => exact (leaves_synchronizeMulticast groups b.ids b).ge.trans' h
  | outbound packet => exact (leaves_outbound inputs packet b).ge.trans' h
  | inbound delivery =>
    have hleaves : Action.Leaves mtu (inbound crypto inputs delivery) := .bind (.gets _) fun _ => leaves_onSession _ () _
    exact (hleaves b).ge.trans' h

/-- Every packet fits that need not be fragmented. -/
theorem mtu_run (crypto : PacketCrypto) (events : ℕ → BridgeInputs × BridgeEvent) (k : ℕ) : 68 ≤ (run crypto events k).mtu := by
  induction k with
  | zero => exact Nat.le_of_lt (by norm_num [run, states])
  | succ k ih => exact mtu_step ih _

/-! ## The networks of a snapshot -/

/-- No common id, and subnets that differ under the shorter of their masks. -/
def Apart (state previous : NetworkPeerState) : Prop :=
  state.networkId ≠ previous.networkId ∧
    (state.subnetAddress &&& subnetMask (min state.prefixLength previous.prefixLength)) ≠
      (previous.subnetAddress &&& subnetMask (min state.prefixLength previous.prefixLength))

theorem checkApart_all {state : NetworkPeerState} {before : List NetworkPeerState} (h : checkApart state before = .ok ()) :
    ∀ previous ∈ before, Apart state previous := by
  induction before with
  | nil => simp
  | cons previous rest ih =>
    simp only [checkApart, bind_eq_ok, check_eq_ok, exists_const, not_or] at h
    intro other hother
    rcases List.mem_cons.1 hother with rfl | hother
    · exact h.1
    · exact ih h.2 other hother

theorem checkNetworks_apart {before : List NetworkPeerState} {networks : List ActiveNetworkPacketState}
    (h : checkNetworks before networks = .ok ()) : (networks.Pairwise fun a b => Apart b.peers a.peers) ∧
      ∀ network ∈ networks, ∀ previous ∈ before, Apart network.peers previous := by
  induction networks generalizing before with
  | nil => simp
  | cons network networks ih =>
    simp only [checkNetworks, bind_eq_ok, check_eq_ok, exists_const] at h
    obtain ⟨-, u, hapart, hrest⟩ := h
    obtain ⟨hpairwise, hbefore⟩ := ih hrest
    constructor
    · exact List.pairwise_cons.2 ⟨fun other ho => hbefore other ho network.peers (by simp), hpairwise⟩
    · intro other hmem previous hprevious
      rcases List.mem_cons.1 hmem with rfl | hmem
      · exact checkApart_all hapart previous hprevious
      · exact hbefore other hmem previous (by simp [hprevious])

/-- The sessions are those of the snapshot. -/
structure Holds (snapshot : NetworkSnapshot) (b : VirtualPacketBridge) : Prop where
  sessions : ∀ n s, b.sessions.lookup n = some s → s.peers.networkId = n ∧
    (∃ network ∈ snapshot.networks, network.peers = s.peers) ∧
    ∃ identity, snapshot.identity = some identity ∧ s.ownDeviceId = identity.deviceId
  networks : ∀ identity, snapshot.identity = some identity → ∀ network ∈ snapshot.networks,
    ∃ s, b.sessions.lookup network.peers.networkId = some s ∧ s.peers = network.peers

/-- What a synchronisation that returns has made of each session. -/
theorem synchronize_ok {inputs : BridgeInputs} {identity : PacketIdentitySnapshot} {networks : List ActiveNetworkPacketState}
    (h : (synchronize crypto inputs (some identity) networks b).1 = .ok ()) : checkNetworks [] networks = .ok () ∧
      ∀ n, Turned crypto inputs identity networks n (b.sessions.lookup n)
          ((synchronize crypto inputs (some identity) networks b).2.sessions.lookup n) ∨
        ((synchronize crypto inputs (some identity) networks b).2.sessions.lookup n = none ∧
          ∀ network ∈ networks, network.peers.networkId ≠ n) := by
  have hpost : ∀ n, Action.Post (synchronize crypto inputs (some identity) networks) b fun r b' => r = .ok () →
      checkNetworks [] networks = .ok () ∧ (Turned crypto inputs identity networks n (b.sessions.lookup n) (b'.sessions.lookup n) ∨
        (b'.sessions.lookup n = none ∧ ∀ network ∈ networks, network.peers.networkId ≠ n)) := by
    intro n
    refine Action.post_lift_bind (fun _ hchecked => ?_) fun e he => nomatch he
    rw [Action.post_bind]
    refine (synchronizeNetworks_own (fun _ h => h) (checkNetworks_ok hchecked).1 (AList.notMem_empty n) 0 b).mono
      fun r b' ⟨_, _, hu⟩ => ?_
    cases r with
    | error e => exact fun he => nomatch he
    | ok updated => exact fun _ => ⟨hchecked, hu updated rfl⟩
  exact ⟨(hpost 0 h).1, fun n => (hpost n h).2⟩

/-- A session after its turn holds the state of its network. -/
theorem Turned.peers {inputs : BridgeInputs} {identity : PacketIdentitySnapshot} {networks : List ActiveNetworkPacketState}
    {n : NetworkId} {before : Option Session} {t : Session} (h : Turned crypto inputs identity networks n before (some t)) :
    ∃ network ∈ networks, network.peers = t.peers ∧ t.peers.networkId = n := by
  cases h with
  | kept hmem hid hs hkeeps hrefreshed =>
    rename_i s network
    obtain ⟨-, -, -, -, hpeers⟩ | ⟨rfl, hpeers⟩ := refreshed_ok hrefreshed
    · exact ⟨network, hmem, hpeers.symm, by rw [hpeers, hid]⟩
    · exact ⟨network, hmem, hpeers.symm, by rw [hpeers, hid]⟩
  | created i hmem hid hnew hstate hcreated =>
    rename_i network
    obtain ⟨-, -, -, -, -, -, hpeers⟩ := created_ok hcreated
    exact ⟨network, hmem, hpeers.symm, by rw [hpeers, hid]⟩

/-- It is a session of the identity's device. -/
theorem Turned.device {inputs : BridgeInputs} {identity : PacketIdentitySnapshot} {networks : List ActiveNetworkPacketState}
    {n : NetworkId} {before : Option Session} {t : Session} (h : Turned crypto inputs identity networks n before (some t))
    (hbefore : ∀ s, before = some s → SessionAgrees crypto s)
    (hidentity : verifySignedDeviceKey crypto.toCrypto identity.signedKey identity.deviceId) :
    t.ownDeviceId = identity.deviceId := by
  cases h with
  | kept hmem hid hs hkeeps hrefreshed =>
    rename_i s network
    obtain ⟨-, -, hdevice⟩ := agrees_refreshed hrefreshed (hbefore s hs)
    have hkey : s.ownSignedKey = identity.signedKey := by
      simp only [keepsSession, Bool.and_eq_true, decide_eq_true_eq] at hkeeps
      exact hkeeps.2
    have hverified := (hbefore s hs).verified
    rw [hkey] at hverified
    simp only [verifySignedDeviceKey, Bool.and_eq_true, decide_eq_true_eq] at hverified hidentity
    rw [hdevice, ← hverified.1.2, hidentity.1.2]
  | created i hmem hid hnew hstate hcreated =>
    obtain ⟨-, -, -, -, -, hdevice, -⟩ := created_ok hcreated
    exact hdevice

theorem holds_synchronize {inputs : BridgeInputs} {snapshot : NetworkSnapshot} (ha : Agrees crypto b)
    (hidentity : ∀ identity, snapshot.identity = some identity →
      verifySignedDeviceKey crypto.toCrypto identity.signedKey identity.deviceId)
    (h : (synchronize crypto inputs snapshot.identity snapshot.networks b).1 = .ok ()) :
    Holds snapshot (synchronize crypto inputs snapshot.identity snapshot.networks b).2 := by
  cases hsome : snapshot.identity with
  | none =>
    refine ⟨fun n s hs => ?_, fun identity hi => ?_⟩
    · cases hs
    · rw [hsome] at hi
      cases hi
  | some identity =>
    rw [hsome] at h
    obtain ⟨hchecked, hturned⟩ := synchronize_ok h
    refine ⟨fun n s hs => ?_, fun identity' hi network hmem => ?_⟩
    · rcases hturned n with hn | ⟨hn, -⟩
      · rw [hs] at hn
        obtain ⟨network, hmem, hpeers, hid⟩ := hn.peers
        exact ⟨hid, ⟨network, hmem, hpeers⟩, identity, hsome, hn.device (ha n) (hidentity identity hsome)⟩
      · rw [hs] at hn
        cases hn
    · rcases hturned network.peers.networkId with hn | ⟨-, hn⟩
      · cases ht : (synchronize crypto inputs (some identity) snapshot.networks b).2.sessions.lookup network.peers.networkId with
        | none =>
          rw [ht] at hn
          cases hn
        | some t =>
          rw [ht] at hn
          obtain ⟨other, hother, hpeers, hid⟩ := hn.peers
          refine ⟨t, rfl, ?_⟩
          rw [← hpeers]
          -- the snapshot lists no network twice
          have hnodup := (checkNetworks_ok hchecked).1
          rw [← hpeers] at hid
          rw [List.inj_on_of_nodup_map hnodup hother hmem hid]
      · exact absurd rfl (hn network hmem)

/-- What `Holds` reads of the session of `n`. -/
def heldBy (b : VirtualPacketBridge) (n : NetworkId) : Option (NetworkPeerState × DeviceId) :=
  (b.sessions.lookup n).map fun s => (s.peers, s.ownDeviceId)

theorem Holds.congr {snapshot : NetworkSnapshot} (h : Holds snapshot b) (hsame : ∀ n, b'.heldBy n = b.heldBy n) :
    Holds snapshot b' := by
  refine ⟨fun n t ht => ?_, fun identity hi network hmem => ?_⟩
  · have hn := hsame n
    rw [heldBy, ht, heldBy, Option.map_some] at hn
    obtain ⟨s, hs, heq⟩ := Option.map_eq_some_iff.1 hn.symm
    obtain ⟨hpeers, hdevice⟩ := Prod.ext_iff.1 heq
    dsimp only at hpeers hdevice
    rw [← hpeers, ← hdevice]
    exact h.sessions n s hs
  · obtain ⟨s, hs, hpeers⟩ := h.networks identity hi network hmem
    have hn := hsame network.peers.networkId
    rw [heldBy, heldBy, hs, Option.map_some] at hn
    obtain ⟨t, ht, heq⟩ := Option.map_eq_some_iff.1 hn
    exact ⟨t, ht, (congrArg Prod.fst heq).trans hpeers⟩

theorem Carries.heldBy (h : Carries crypto b b') (n : NetworkId) : b'.heldBy n = b.heldBy n := by
  obtain ⟨new, -, hn⟩ := h
  have hcarried := hn n
  unfold Carried at hcarried
  unfold VirtualPacketBridge.heldBy
  rcases hs : b.sessions.lookup n with _ | s <;> rcases ht : b'.sessions.lookup n with _ | t <;> rw [hs, ht] at hcarried
  · contradiction
  · contradiction
  · obtain ⟨ps, hsame, -⟩ := hcarried
    simp only [Option.map_some, hsame.peers, hsame.ownDeviceId]

theorem heldBy_insert {n : NetworkId} {s t : Session} (hs : b.sessions.lookup n = some s) (hpeers : t.peers = s.peers)
    (hdevice : t.ownDeviceId = s.ownDeviceId) (m : NetworkId) :
    ({ b with sessions := b.sessions.insert n t } : VirtualPacketBridge).heldBy m = b.heldBy m := by
  unfold heldBy
  dsimp only
  rw [Map.lookup_insert]
  split
  · rename_i heq
    subst heq
    rw [hs, Option.map_some, Option.map_some, hpeers, hdevice]
  · rfl

/-- A call that replaces the sessions. -/
def Resets : BridgeEvent → Prop
  | .synchronize _ _ => True
  | .clear => True
  | _ => False

theorem heldBy_step (hl : crypto.Lawful) (hw : Wf crypto b) {e : BridgeInputs × BridgeEvent} (he : ¬ Resets e.2) (n : NetworkId) :
    (b.step crypto e).heldBy n = b.heldBy n := by
  obtain ⟨inputs, e⟩ := e
  cases e with
  | synchronize identity networks => exact absurd trivial he
  | clear => exact absurd trivial he
  | inbound delivery =>
    simp only [step]
    rcases inbound_cases hl hw inputs delivery with ⟨-, heq⟩ | ⟨s, hs, ⟨e, -, heq⟩ | ⟨plaintext, c, -, hcarries⟩⟩
    · rw [heq]
    · rw [heq]
      exact heldBy_insert hs rfl rfl n
    · rw [hcarries.heldBy n]
      exact heldBy_insert (t := { s with cipher := c }) hs rfl rfl n
  | setMtu mtu => exact (carries_step hl hw inputs (by simp) (by simp) (by simp)).heldBy n
  | setRoutingOptions acceptRoutes forward => exact (carries_step hl hw inputs (by simp) (by simp) (by simp)).heldBy n
  | synchronizeMulticast groups => exact (carries_step hl hw inputs (by simp) (by simp) (by simp)).heldBy n
  | outbound packet => exact (carries_step hl hw inputs (by simp) (by simp) (by simp)).heldBy n

/-- The bridge was synchronised on the snapshot before call `k`, and its sessions have not been replaced since. -/
def SynchronizedOn (crypto : PacketCrypto) (events : ℕ → BridgeInputs × BridgeEvent) (k : ℕ) (snapshot : NetworkSnapshot) : Prop :=
  ∃ j < k, ∃ inputs, events j = (inputs, .synchronize snapshot.identity snapshot.networks) ∧
    (synchronize crypto inputs snapshot.identity snapshot.networks (run crypto events j)).1 = .ok () ∧
    ∀ i, j < i → i < k → ¬ Resets (events i).2

theorem holds_run (hl : crypto.Lawful) {events : ℕ → BridgeInputs × BridgeEvent} {k : ℕ} {snapshot : NetworkSnapshot}
    (hidentity : ∀ identity, snapshot.identity = some identity →
      verifySignedDeviceKey crypto.toCrypto identity.signedKey identity.deviceId)
    (h : SynchronizedOn crypto events k snapshot) : Holds snapshot (run crypto events k) := by
  obtain ⟨j, hj, inputs, hevent, hok, hrest⟩ := h
  induction k, Nat.succ_le_of_lt hj using Nat.le_induction with
  | base =>
    have hstep : run crypto events (j + 1) = (synchronize crypto inputs snapshot.identity snapshot.networks (run crypto events j)).2 := by
      change (run crypto events j).step crypto (events j) = _
      rw [hevent]
      rfl
    rw [hstep]
    exact holds_synchronize (agrees_run hl events j) hidentity hok
  | succ k hk ih =>
    refine (ih (by omega) fun i hi hik => hrest i hi (by omega)).congr fun n => ?_
    exact heldBy_step hl (wf_run hl events k) (hrest k (by omega) (by omega)) n

/-! ## Key epochs -/

/-- The state of a session is of the epoch of its key. -/
def EpochsAgree (b : VirtualPacketBridge) : Prop :=
  ∀ n s, b.sessions.lookup n = some s → s.peers.keyEpoch = s.key.epoch

theorem epoch_of_updatePeers {c c' : NetworkPacketCipher} {state : NetworkPeerState} (h : c.updatePeers crypto state = .ok c') :
    state.keyEpoch = c.keyEpoch := by
  simp only [updatePeers, bind_eq_ok, check_eq_ok, exists_const, not_or, not_not] at h
  exact h.1.2.1

theorem Turned.epoch {inputs : BridgeInputs} {identity : PacketIdentitySnapshot} {networks : List ActiveNetworkPacketState}
    {n : NetworkId} {before : Option Session} {t : Session} (h : Turned crypto inputs identity networks n before (some t))
    (hbefore : ∀ s, before = some s → SessionWf crypto n s ∧ s.peers.keyEpoch = s.key.epoch) :
    t.peers.keyEpoch = t.key.epoch := by
  cases h with
  | kept hmem hid hs hkeeps hrefreshed =>
    rename_i s network
    obtain ⟨hw, hepoch⟩ := hbefore s hs
    unfold refreshed at hrefreshed
    split at hrefreshed
    · cases hrefreshed
      exact hepoch
    · -- the cipher has checked the new state against its own epoch
      simp only [bind_eq_ok, Except.ok.injEq] at hrefreshed
      obtain ⟨c, hc, rfl⟩ := hrefreshed
      exact (epoch_of_updatePeers hc).trans hw.keyEpoch
  | created i hmem hid hnew hstate hcreated =>
    obtain ⟨-, -, -, hkey, -, -, hpeers⟩ := created_ok hcreated
    rw [hpeers, hkey]
    exact checkState_ok hstate

theorem epochsAgree_step (hl : crypto.Lawful) (hw : Wf crypto b) (h : EpochsAgree b) (e : BridgeInputs × BridgeEvent) :
    EpochsAgree (b.step crypto e) := by
  intro n t ht
  by_cases he : Resets e.2
  · obtain ⟨inputs, e⟩ := e
    cases e with
    | synchronize identity networks =>
      obtain ⟨-, hcases⟩ := synchronize_cases crypto inputs identity networks b n
      simp only [step] at ht
      rw [ht] at hcases
      rcases hcases with hsame | ⟨hnone, -⟩ | ⟨i, -, -, hturned⟩
      · exact h n t hsame.symm
      · cases hnone
      · exact hturned.epoch fun s hs => ⟨hw n s hs, h n s hs⟩
    | clear => cases ht
    | setMtu mtu => exact he.elim
    | setRoutingOptions acceptRoutes forward => exact he.elim
    | synchronizeMulticast groups => exact he.elim
    | outbound packet => exact he.elim
    | inbound delivery => exact he.elim
  · obtain ⟨new, -, hstepped⟩ := stepped hl hw e n
    have hheld := heldBy_step hl hw he n
    rw [heldBy, heldBy, ht] at hheld
    rw [ht] at hstepped
    generalize hx : b.sessions.lookup n = x at hstepped hheld
    cases hstepped with
    | moved hmoved =>
      simp only [Option.map_some, Option.some.injEq, Prod.mk.injEq] at hheld
      rw [hheld.1, hmoved.key]
      exact h n _ hx
    | created i hsync => exact absurd (hsync ▸ trivial : Resets e.2) he

theorem epochsAgree_run (hl : crypto.Lawful) (events : ℕ → BridgeInputs × BridgeEvent) (k : ℕ) :
    EpochsAgree (run crypto events k) := by
  induction k with
  | zero =>
    intro n s hs
    cases hs
  | succ k ih => exact epochsAgree_step hl (wf_run hl events k) ih _

/-! ## Own addresses -/

/-- The device has another address in every network. -/
def OwnsApart (b : VirtualPacketBridge) : Prop :=
  ∀ n m s t, b.sessions.lookup n = some s → b.sessions.lookup m = some t → m ≠ n → t.peers.ownAddress ≠ s.peers.ownAddress

def ownOf (b : VirtualPacketBridge) (n : NetworkId) : Option UInt32 := (b.sessions.lookup n).map fun s => s.peers.ownAddress

theorem OwnsApart.congr (h : OwnsApart b) (hsame : ∀ n, b'.ownOf n = b.ownOf n) : OwnsApart b' := by
  intro n m s t hs ht hne
  have hn := hsame n
  have hm := hsame m
  rw [ownOf, hs, ownOf, Option.map_some] at hn
  rw [ownOf, ht, ownOf, Option.map_some] at hm
  obtain ⟨s', hs', heq⟩ := Option.map_eq_some_iff.1 hn.symm
  obtain ⟨t', ht', heq'⟩ := Option.map_eq_some_iff.1 hm.symm
  rw [← heq, ← heq']
  exact h n m s' t' hs' ht' hne

theorem ownOf_eq (b : VirtualPacketBridge) (n : NetworkId) : b.ownOf n = (b.heldBy n).map fun h => h.1.ownAddress := by
  rw [ownOf, heldBy, Option.map_map]
  rfl

/-- A session that is kept keeps its address. -/
theorem owns_synchronizeNetwork (inputs : BridgeInputs) (identity : PacketIdentitySnapshot) (updated : Map NetworkId Session)
    (i : ℕ) (network : ActiveNetworkPacketState) (b : VirtualPacketBridge) :
    Action.Post (synchronizeNetwork crypto inputs identity updated i network) b fun _ b' => ∀ n, b'.ownOf n = b.ownOf n := by
  unfold synchronizeNetwork
  refine Action.post_lift_bind (fun _ _ => ?_) fun e n => rfl
  rw [Action.post_gets_bind]
  split
  · rename_i s hs
    obtain ⟨hbefore, hkeeps⟩ := Option.filter_eq_some_iff.1 hs
    refine Action.post_lift_bind (fun t ht => ?_) fun e n => rfl
    simp only [Action.post_bind, Action.post_modify, Action.post_pure]
    intro n
    have haddress : t.peers.ownAddress = s.peers.ownAddress := by
      simp only [keepsSession, Bool.and_eq_true, decide_eq_true_eq] at hkeeps
      rcases refreshed_ok ht with ⟨-, -, -, -, hpeers⟩ | ⟨rfl, -⟩
      · rw [hpeers, hkeeps.1.2]
      · rfl
    unfold ownOf
    dsimp only
    rw [Map.lookup_insert]
    split
    · rename_i heq
      rw [heq, hbefore, Option.map_some, Option.map_some, haddress]
    · rfl
  · refine Action.post_lift_bind (fun t _ => ?_) fun e n => rfl
    split
    · exact fun n => rfl
    · exact fun n => rfl

theorem owns_synchronizeNetworks (inputs : BridgeInputs) (identity : PacketIdentitySnapshot) (updated : Map NetworkId Session)
    (i : ℕ) (networks : List ActiveNetworkPacketState) (b : VirtualPacketBridge) :
    Action.Post (synchronizeNetworks crypto inputs identity updated i networks) b fun _ b' => ∀ n, b'.ownOf n = b.ownOf n := by
  induction networks generalizing updated i b with
  | nil => exact fun n => rfl
  | cons network networks ih =>
    rw [synchronizeNetworks, Action.post_bind]
    refine (owns_synchronizeNetwork inputs identity updated i network b).mono fun r b₁ hsame => ?_
    cases r with
    | error e => exact hsame
    | ok updated₁ => exact (ih updated₁ (i + 1) b₁).mono fun _ b₂ hsame₂ n => (hsame₂ n).trans (hsame n)

/-- The own addresses of networks that are apart differ. -/
theorem own_ne_of_apart {state previous : NetworkPeerState} (h : Apart state previous) (hvalid : requirePeerState state = .ok ())
    (hvalid' : requirePeerState previous = .ok ()) : state.ownAddress ≠ previous.ownAddress := by
  obtain ⟨hlength, hge, hlt, haligned, hhost⟩ := valid_own hvalid
  obtain ⟨hlength', hge', hlt', haligned', hhost'⟩ := valid_own hvalid'
  have hmask (x : UInt32) : (x &&& subnetMask 24).toNat = x.toNat / 256 * 256 :=
    toNat_and_subnetMask (p := 24) (by decide) (by decide) x
  have hsubnets := h.2
  have h24 : min (24 : UInt8) 24 = 24 := by decide
  rw [hlength, hlength', h24, ne_eq, ← UInt32.toNat_inj, hmask, hmask] at hsubnets
  intro heq
  rw [heq] at hhost
  omega

theorem ownsApart_synchronize {inputs : BridgeInputs} {identity : Option PacketIdentitySnapshot}
    {networks : List ActiveNetworkPacketState} (h : OwnsApart b)
    (hagrees : Agrees crypto (synchronize crypto inputs identity networks b).2) :
    OwnsApart (synchronize crypto inputs identity networks b).2 := by
  cases identity with
  | none =>
    intro n m s t hs
    cases hs
  | some identity =>
    cases hresult : (synchronize crypto inputs (some identity) networks b).1 with
    | error e =>
      refine h.congr fun n => ?_
      have hpost : Action.Post (synchronize crypto inputs (some identity) networks) b fun r b' =>
          ∀ e, r = .error e → ∀ n, b'.ownOf n = b.ownOf n := by
        refine Action.post_lift_bind (fun _ _ => ?_) fun e _ _ n => rfl
        rw [Action.post_bind]
        refine (owns_synchronizeNetworks inputs identity ∅ 0 networks b).mono fun r b' hsame => ?_
        cases r with
        | error e => exact fun _ _ => hsame
        | ok updated => exact fun _ he => nomatch he
      exact hpost e hresult n
    | ok u =>
      obtain ⟨hchecked, hturned⟩ := synchronize_ok hresult
      have hall : networks.Pairwise fun a b => Apart a.peers b.peers ∨ Apart b.peers a.peers :=
        (checkNetworks_apart hchecked).1.imp .inr
      have hsymm : Std.Symm fun a b : ActiveNetworkPacketState => Apart a.peers b.peers ∨ Apart b.peers a.peers :=
        ⟨fun _ _ h => h.symm⟩
      have hlisted : ∀ n s, (synchronize crypto inputs (some identity) networks b).2.sessions.lookup n = some s →
          ∃ network ∈ networks, network.peers = s.peers ∧ s.peers.networkId = n := by
        intro n s hs
        rcases hturned n with hn | ⟨hn, -⟩
        · rw [hs] at hn
          exact hn.peers
        · rw [hs] at hn
          cases hn
      intro n m s t hs ht hne
      obtain ⟨network, hmem, hpeers, hn⟩ := hlisted n s hs
      obtain ⟨other, hother, hpeers', hm⟩ := hlisted m t ht
      have hapart := hall.forall hother hmem fun heq => hne (by rw [← hm, ← hn, ← hpeers, ← hpeers', heq])
      rw [hpeers, hpeers'] at hapart
      have hs' := (hagrees n s hs).valid
      have ht' := (hagrees m t ht).valid
      rcases hapart with hapart | hapart
      · exact own_ne_of_apart hapart ht' hs'
      · exact (own_ne_of_apart hapart hs' ht').symm

theorem ownsApart_step (hl : crypto.Lawful) (hw : Wf crypto b) (ha : Agrees crypto b) (h : OwnsApart b)
    (e : BridgeInputs × BridgeEvent) : OwnsApart (b.step crypto e) := by
  by_cases he : Resets e.2
  · obtain ⟨inputs, e⟩ := e
    have hagrees := agrees_step hl hw ha (inputs, e)
    cases e with
    | synchronize identity networks => exact ownsApart_synchronize h hagrees
    | clear =>
      intro n m s t hs
      cases hs
    | setMtu mtu => exact he.elim
    | setRoutingOptions acceptRoutes forward => exact he.elim
    | synchronizeMulticast groups => exact he.elim
    | outbound packet => exact he.elim
    | inbound delivery => exact he.elim
  · exact h.congr fun n => by rw [ownOf_eq, ownOf_eq, heldBy_step hl hw he]

theorem ownsApart_run (hl : crypto.Lawful) (events : ℕ → BridgeInputs × BridgeEvent) (k : ℕ) : OwnsApart (run crypto events k) := by
  induction k with
  | zero =>
    intro n m s t hs
    cases hs
  | succ k ih => exact ownsApart_step hl (wf_run hl events k) (agrees_run hl events k) ih _

end VirtualPacketBridge

end LanLink
