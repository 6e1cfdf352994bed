import LanLink.Lib.Runs
import LanLink.Transport.BridgeTrace
/-!
# Runs of a bridge

`synchronize` takes the networks of a snapshot one after the other. It keeps a
session and updates its peers, creates one, or drops those not listed; if it
throws, the sessions it has not come to are as before. A run is any sequence of
calls of the member functions.
-/
open LanLink.Lib

namespace LanLink

namespace VirtualPacketBridge
open Session

variable {crypto : PacketCrypto} {b : VirtualPacketBridge}

/-! ## Synchronisation -/

/-- What the second loop of `synchronize` makes of the session of `n`, which was `before`. -/
inductive Turned (crypto : PacketCrypto) (inputs : BridgeInputs) (identity : PacketIdentitySnapshot)
    (networks : List ActiveNetworkPacketState) (n : NetworkId) (before : Option Session) : Option Session → Prop
  | kept {s t : Session} {network : ActiveNetworkPacketState} (hmem : network ∈ networks)
      (hid : network.peers.networkId = n) (hbefore : before = some s) (hkeeps : keepsSession s identity network)
      (hrefreshed : refreshed crypto s network.peers = .ok t) :
      Turned crypto inputs identity networks n before (some t)
  | created {t : Session} {network : ActiveNetworkPacketState} (i : ℕ) (hmem : network ∈ networks)
      (hid : network.peers.networkId = n) (hnew : ∀ s, before = some s → ¬ keepsSession s identity network)
      (hstate : checkState network = .ok ())
      (hcreated : created crypto (inputs.noncePrefixes i) identity network = .ok t) :
      Turned crypto inputs identity networks n before (some t)

section
variable {inputs : BridgeInputs} {identity : PacketIdentitySnapshot} {updated : Map NetworkId Session} {n : NetworkId}
  {network : ActiveNetworkPacketState} {networks rest : List ActiveNetworkPacketState}

theorem synchronizeNetwork_other (hid : network.peers.networkId ≠ n) (i : ℕ) (b : VirtualPacketBridge) :
    Action.Post (synchronizeNetwork crypto inputs identity updated i network) b fun r b' =>
      b'.calls = b.calls ∧ b'.sessions.lookup n = b.sessions.lookup n ∧
        ∀ u, r = .ok u → u.lookup n = updated.lookup n := by
  have herr : ∀ (e : Exn) (u : Map NetworkId Session), Except.error e = Except.ok u → u.lookup n = updated.lookup n :=
    fun _ _ h => nomatch h
  unfold synchronizeNetwork
  refine Action.post_lift_bind (fun _ _ => ?_) fun e => ⟨rfl, rfl, herr e⟩
  rw [Action.post_gets_bind]
  split
  · refine Action.post_lift_bind (fun t _ => ?_) fun e => ⟨rfl, rfl, herr e⟩
    simp only [Action.post_bind, Action.post_modify, Action.post_pure]
    refine ⟨trivial, AList.lookup_insert_ne hid.symm, fun u hu => ?_⟩
    cases hu
    split
    · rfl
    · exact AList.lookup_insert_ne hid.symm
  · refine Action.post_lift_bind (fun t _ => ?_) fun e => ⟨rfl, rfl, herr e⟩
    split
    · exact ⟨rfl, rfl, herr _⟩
    · refine ⟨rfl, rfl, fun u hu => ?_⟩
      cases hu
      exact AList.lookup_insert_ne hid.symm

theorem synchronizeNetwork_own (hmem : network ∈ networks) (hid : network.peers.networkId = n) (hn : n ∉ updated) (i : ℕ)
    (b : VirtualPacketBridge) :
    Action.Post (synchronizeNetwork crypto inputs identity updated i network) b fun r b' =>
      b'.calls = b.calls ∧
        (b'.sessions.lookup n = b.sessions.lookup n ∨
          Turned crypto inputs identity networks n (b.sessions.lookup n) (b'.sessions.lookup n)) ∧
        ∀ u, r = .ok u → Turned crypto inputs identity networks n (b.sessions.lookup n) (u.lookup n) := by
  subst hid
  have herr : ∀ (e : Exn) (u : Map NetworkId Session), Except.error e = Except.ok u → Turned crypto inputs identity networks
      network.peers.networkId (b.sessions.lookup network.peers.networkId) (u.lookup network.peers.networkId) :=
    fun _ _ h => nomatch h
  unfold synchronizeNetwork
  refine Action.post_lift_bind (fun _ hstate => ?_) fun e => ⟨rfl, .inl rfl, herr e⟩
  rw [Action.post_gets_bind]
  split
  · rename_i s hs
    obtain ⟨hbefore, hkeeps⟩ := Option.filter_eq_some_iff.1 hs
    refine Action.post_lift_bind (fun t ht => ?_) fun e => ⟨rfl, .inl rfl, herr e⟩
    simp only [Action.post_bind, Action.post_modify, Action.post_pure]
    refine ⟨trivial, .inr ?_, fun u hu => ?_⟩
    · rw [AList.lookup_insert]
      exact .kept hmem rfl hbefore hkeeps ht
    · cases hu
      rw [if_neg hn, AList.lookup_insert]
      exact .kept hmem rfl hbefore hkeeps ht
  · rename_i hs
    refine Action.post_lift_bind (fun t ht => ?_) fun e => ⟨rfl, .inl rfl, herr e⟩
    rw [if_neg hn]
    refine ⟨rfl, .inl rfl, fun u hu => ?_⟩
    cases hu
    rw [AList.lookup_insert]
    refine .created i hmem rfl (fun s hbefore hkeeps => ?_) hstate ht
    rw [Option.filter_eq_none_iff] at hs
    exact hs s hbefore hkeeps

theorem synchronizeNetworks_other (hid : ∀ network ∈ rest, network.peers.networkId ≠ n) (updated : Map NetworkId Session)
    (i : ℕ) (b : VirtualPacketBridge) :
    Action.Post (synchronizeNetworks crypto inputs identity updated i rest) b fun r b' =>
      b'.calls = b.calls ∧ b'.sessions.lookup n = b.sessions.lookup n ∧
        ∀ u, r = .ok u → u.lookup n = updated.lookup n := by
  induction rest generalizing updated i b with
  | nil =>
    refine ⟨rfl, rfl, fun u hu => ?_⟩
    cases hu
    rfl
  | cons network rest ih =>
    rw [synchronizeNetworks, Action.post_bind]
    refine (synchronizeNetwork_other (hid network (by simp)) i b).mono fun r b₁ ⟨hcalls, hsessions, hu⟩ => ?_
    cases r with
    | error e => exact ⟨hcalls, hsessions, fun u h => nomatch h⟩
    | ok updated₁ =>
      refine (ih (fun network h => hid network (by simp [h])) updated₁ (i + 1) b₁).mono
        fun r b₂ ⟨hcalls₂, hsessions₂, hu₂⟩ => ?_
      exact ⟨hcalls₂.trans hcalls, hsessions₂.trans hsessions, fun u h => (hu₂ u h).trans (hu _ rfl)⟩

/-- The loop over networks of different ids. -/
theorem synchronizeNetworks_own (hsub : ∀ network ∈ rest, network ∈ networks)
    (hdistinct : (rest.map (·.peers.networkId)).Nodup) (hn : n ∉ updated) (i : ℕ) (b : VirtualPacketBridge) :
    Action.Post (synchronizeNetworks crypto inputs identity updated i rest) b fun r b' =>
      b'.calls = b.calls ∧
        (b'.sessions.lookup n = b.sessions.lookup n ∨
          Turned crypto inputs identity networks n (b.sessions.lookup n) (b'.sessions.lookup n)) ∧
        ∀ u, r = .ok u → Turned crypto inputs identity networks n (b.sessions.lookup n) (u.lookup n) ∨
          (u.lookup n = none ∧ ∀ network ∈ rest, network.peers.networkId ≠ n) := by
  induction rest generalizing updated i b with
  | nil =>
    refine ⟨rfl, .inl rfl, fun u hu => .inr ⟨?_, by simp⟩⟩
    cases hu
    exact AList.lookup_eq_none.2 hn
  | cons network rest ih =>
    rw [List.map_cons, List.nodup_cons] at hdistinct
    have hsub' : ∀ other ∈ rest, other ∈ networks := fun other h => hsub other (by simp [h])
    rw [synchronizeNetworks, Action.post_bind]
    by_cases hid : network.peers.networkId = n
    · -- the turn of `n`: the networks after it leave the session alone
      refine (synchronizeNetwork_own (hsub network (by simp)) hid hn i b).mono fun r b₁ ⟨hcalls, hsessions, hu⟩ => ?_
      cases r with
      | error e => exact ⟨hcalls, hsessions, fun u h => nomatch h⟩
      | ok updated₁ =>
        have hrest : ∀ other ∈ rest, other.peers.networkId ≠ n := fun other h heq =>
          hdistinct.1 (hid.trans heq.symm ▸ List.mem_map_of_mem h)
        refine (synchronizeNetworks_other hrest updated₁ (i + 1) b₁).mono fun r b₂ ⟨hcalls₂, hsessions₂, hu₂⟩ => ?_
        refine ⟨hcalls₂.trans hcalls, ?_, fun u h => .inl ?_⟩
        · rw [hsessions₂]
          exact hsessions
        · rw [hu₂ u h]
          exact hu _ rfl
    · refine (synchronizeNetwork_other hid i b).mono fun r b₁ ⟨hcalls, hsessions, hu⟩ => ?_
      cases r with
      | error e => exact ⟨hcalls, .inl hsessions, fun u h => nomatch h⟩
      | ok updated₁ =>
        have hn₁ : n ∉ updated₁ := by
          rw [← AList.lookup_eq_none, hu _ rfl]
          exact AList.lookup_eq_none.2 hn
        refine (ih hsub' hdistinct.2 hn₁ (i + 1) b₁).mono fun r b₂ ⟨hcalls₂, hsessions₂, hu₂⟩ => ?_
        rw [hsessions] at hsessions₂ hu₂
        refine ⟨hcalls₂.trans hcalls, hsessions₂, fun u h => ?_⟩
        rcases hu₂ u h with hturned | ⟨hnone, hother⟩
        · exact .inl hturned
        · exact .inr ⟨hnone, List.forall_mem_cons.2 ⟨hid, hother⟩⟩

theorem checkApart_ok {state : NetworkPeerState} {before : List NetworkPeerState} (h : checkApart state before = .ok ()) :
    ∀ previous ∈ before, state.networkId ≠ previous.networkId := by
  induction before with
  | nil => simp
  | cons previous rest ih =>
    simp only [checkApart, bind_eq_ok, check_eq_ok, exists_const] at h
    rw [not_or] at h
    intro other hother
    rcases List.mem_cons.1 hother with rfl | hother
    · exact h.1.1
    · exact ih h.2 other hother

/-- Snapshots that pass the first loop list no network twice. -/
theorem checkNetworks_ok {before : List NetworkPeerState} (h : checkNetworks before networks = .ok ()) :
    (networks.map (·.peers.networkId)).Nodup ∧
      ∀ network ∈ networks, ∀ previous ∈ before, network.peers.networkId ≠ previous.networkId := by
  induction networks generalizing before with
  | nil => simp
  | cons network networks ih =>
    simp only [checkNetworks, bind_eq_ok, check_eq_ok, exists_const] at h
    obtain ⟨-, u, hapart, hrest⟩ := h
    obtain ⟨hnodup, hother⟩ := ih hrest
    constructor
    · rw [List.map_cons, List.nodup_cons]
      refine ⟨fun hmem => ?_, hnodup⟩
      obtain ⟨other, ho, heq⟩ := List.mem_map.1 hmem
      exact hother other ho network.peers (by simp) heq
    · intro other hmem previous hprevious
      rcases List.mem_cons.1 hmem with rfl | hmem
      · exact checkApart_ok hapart previous hprevious
      · exact hother other hmem previous (by simp [hprevious])

theorem synchronize_cases (crypto : PacketCrypto) (inputs : BridgeInputs) (identity : Option PacketIdentitySnapshot)
    (networks : List ActiveNetworkPacketState) (b : VirtualPacketBridge) (n : NetworkId) :
    Action.Post (synchronize crypto inputs identity networks) b fun _ b' =>
      b'.calls = b.calls ∧
        (b'.sessions.lookup n = b.sessions.lookup n ∨
        (b'.sessions.lookup n = none ∧ (identity = none ∨
          checkNetworks [] networks = .ok () ∧ ∀ network ∈ networks, network.peers.networkId ≠ n)) ∨
        ∃ i, identity = some i ∧ checkNetworks [] networks = .ok () ∧
          Turned crypto inputs i networks n (b.sessions.lookup n) (b'.sessions.lookup n)) := by
  unfold synchronize
  split
  · exact ⟨rfl, .inr (.inl ⟨rfl, .inl rfl⟩)⟩
  · rename_i i
    refine Action.post_lift_bind (fun _ hchecked => ?_) fun e => ⟨rfl, .inl rfl⟩
    rw [Action.post_bind]
    refine (synchronizeNetworks_own (fun _ h => h) (checkNetworks_ok hchecked).1 (AList.notMem_empty n) 0 b).mono
      fun r b' ⟨hcalls, hsessions, hu⟩ => ?_
    cases r with
    | error e =>
      rcases hsessions with hsame | hturned
      · exact ⟨hcalls, .inl hsame⟩
      · exact ⟨hcalls, .inr (.inr ⟨i, rfl, hchecked, hturned⟩)⟩
    | ok updated =>
      rcases hu updated rfl with hturned | ⟨hnone, hother⟩
      · exact ⟨hcalls, .inr (.inr ⟨i, rfl, hchecked, hturned⟩)⟩
      · exact ⟨hcalls, .inr (.inl ⟨hnone, .inr ⟨hchecked, hother⟩⟩)⟩

/-- A refreshed session is the same, or holds the new state. -/
theorem refreshed_ok {s t : Session} {state : NetworkPeerState} (h : refreshed crypto s state = .ok t) :
    t.cipher = s.cipher.run crypto [.updatePeers state] ∧ t.key = s.key ∧ t.ownSignedKey = s.ownSignedKey ∧
      t.ownDeviceId = s.ownDeviceId ∧ t.peers = state ∨ t = s ∧ s.peers = state := by
  unfold refreshed at h
  split at h
  · rename_i heq
    cases h
    exact .inr ⟨rfl, heq⟩
  · simp only [bind_eq_ok, Except.ok.injEq] at h
    obtain ⟨c, hc, rfl⟩ := h
    refine .inl ⟨?_, rfl, rfl, rfl, rfl⟩
    simp [NetworkPacketCipher.run, NetworkPacketCipher.step, hc]

/-- A created session: a new cipher, with the peers of the state. -/
theorem created_ok {noncePrefix : BitVec 64} {t : Session} (h : created crypto noncePrefix identity network = .ok t) :
    ∃ c, NetworkPacketCipher.make crypto noncePrefix network.peers.networkId network.peers.keyEpoch network.key.key
        identity.deviceId identity.signedKey network.peers.ownAddress = .ok c ∧
      c.updatePeers crypto network.peers = .ok t.cipher ∧ t.key = network.key ∧ t.ownSignedKey = identity.signedKey ∧
      t.ownDeviceId = identity.deviceId ∧ t.peers = network.peers := by
  simp only [created, bind_eq_ok, Except.ok.injEq] at h
  obtain ⟨c, hmake, c', hupdate, rfl⟩ := h
  exact ⟨c, hmake, hupdate, rfl, rfl, rfl, rfl⟩

theorem checkState_ok (h : checkState network = .ok ()) : network.peers.keyEpoch = network.key.epoch := by
  unfold checkState at h
  rw [check_eq_ok] at h
  by_contra hne
  exact h (.inr (.inl hne))

theorem sessionWf_created {noncePrefix : BitVec 64} {t : Session} (hid : network.peers.networkId = n)
    (hstate : checkState network = .ok ()) (h : created crypto noncePrefix identity network = .ok t) :
    SessionWf crypto n t := by
  obtain ⟨c, hmake, hupdate, hkey, hsigned, hdevice, hpeers⟩ := created_ok h
  have hsame := (NetworkPacketCipher.updatePeers_ok hupdate).same
  have hfields := hmake
  simp only [NetworkPacketCipher.make, bind_eq_ok, Except.ok.injEq] at hfields
  obtain ⟨-, -, rfl⟩ := hfields
  constructor
  · exact (NetworkPacketCipher.updatePeers_ok hupdate).wf (NetworkPacketCipher.make_ok hmake).1
  · rw [hsame.networkId]
    exact hid
  · rw [hsame.keyEpoch, hkey]
    exact checkState_ok hstate
  · rw [hsame.networkKey, hkey]
  · rw [hsame.ownDeviceId, hdevice]
  · rw [hsame.ownSessionPublicKey, hsigned]
  · rw [hsame.ownIpv4Address, hpeers]

end

/-! ## Runs -/

/-- A call of a member function of the bridge. -/
inductive BridgeEvent
  | synchronize (identity : Option PacketIdentitySnapshot) (networks : List ActiveNetworkPacketState)
  | clear
  | setMtu (mtu : ℕ)
  | setRoutingOptions (acceptRoutes forward : Bool)
  | synchronizeMulticast (groups : Option (List UInt32))
  | outbound (packet : Bytes)
  | inbound (delivery : ForwardedNetworkPacket)

/-- The bridge after a call, also if it threw. -/
def step (crypto : PacketCrypto) (b : VirtualPacketBridge) (e : BridgeInputs × BridgeEvent) : VirtualPacketBridge :=
  match e.2 with
  | .synchronize identity networks => (synchronize crypto e.1 identity networks b).2
  | .clear => b.clear
  | .setMtu mtu => (setMtu mtu b).2
  | .setRoutingOptions acceptRoutes forward => b.setRoutingOptions acceptRoutes forward
  | .synchronizeMulticast groups => (synchronizeMulticast groups b.ids b).2
  | .outbound packet => (outbound crypto e.1 packet b).2
  | .inbound delivery => (inbound crypto e.1 delivery b).2

/-- The bridge after the first `k` calls. -/
def run (crypto : PacketCrypto) (events : ℕ → BridgeInputs × BridgeEvent) (k : ℕ) : VirtualPacketBridge :=
  states (step crypto) {} events k

/-- A call that neither synchronises nor clears nor takes a packet in keeps every session. -/
theorem carries_step (hl : crypto.Lawful) (hw : Wf crypto b) (inputs : BridgeInputs) {e : BridgeEvent}
    (hsync : ∀ identity networks, e ≠ .synchronize identity networks) (hclear : e ≠ .clear)
    (hinbound : ∀ delivery, e ≠ .inbound delivery) : Carries crypto b (b.step crypto (inputs, e)) := by
  cases e with
  | synchronize identity networks => exact absurd rfl (hsync _ _)
  | clear => exact absurd rfl hclear
  | setMtu mtu =>
    have hpost : Action.Post (setMtu mtu) b fun _ b' => b'.sessions = b.sessions ∧ b'.calls = b.calls := by
      refine Action.post_lift_bind (fun _ _ => ?_) fun e => ⟨rfl, rfl⟩
      exact ⟨rfl, rfl⟩
    refine ⟨[], by simpa [step] using hpost.2, fun n => ?_⟩
    simp only [step, hpost.1]
    exact carried_refl crypto n _
  | setRoutingOptions acceptRoutes forward => exact ⟨[], by simp [step, setRoutingOptions], fun n => carried_refl crypto n _⟩
  | synchronizeMulticast groups => exact allCarried_synchronizeMulticast hl groups b.ids b hw
  | outbound packet => exact allCarried_outbound hl inputs packet b hw
  | inbound delivery => exact absurd rfl (hinbound _)

/-! ## What one call does to one session -/

/-- The calls of the cipher of `n`, in session `s`, that an event makes. -/
def CallsCipher (n : NetworkId) (s : Session) (e : BridgeEvent) : CipherOp → Prop
  | .encrypt _ => True
  | .decrypt p d => p.networkId = n ∧ ∃ delivery, e = .inbound delivery ∧ delivery.packet = p ∧ delivery.senderDeviceId = d
  | .updatePeers state => ∃ identity networks network, e = .synchronize (some identity) networks ∧
      checkNetworks [] networks = .ok () ∧ network ∈ networks ∧ network.peers.networkId = n ∧ network.peers = state ∧
      keepsSession s identity network

/-- An event that drops the session of `n`. -/
def Drops (n : NetworkId) : BridgeEvent → Prop
  | .clear => True
  | .synchronize none _ => True
  | .synchronize (some _) networks => checkNetworks [] networks = .ok () ∧ ∀ network ∈ networks, network.peers.networkId ≠ n
  | _ => False

/-- The session went on through calls of its cipher; what the cipher returned was sent. -/
structure Moved (crypto : PacketCrypto) (n : NetworkId) (e : BridgeEvent) (new : List HandlerCall) (s t : Session) : Prop where
  key : t.key = s.key
  ownSignedKey : t.ownSignedKey = s.ownSignedKey
  ownDeviceId : t.ownDeviceId = s.ownDeviceId
  ownAddress : t.peers.ownAddress = s.peers.ownAddress
  ops : ∃ ops, (∀ op ∈ ops, CallsCipher n s e op) ∧ t.cipher = s.cipher.run crypto ops ∧
    sentIn n new = (s.cipher.sent crypto ops).map (·.packet)

/-- The session of `n` before and after an event. -/
inductive Stepped (crypto : PacketCrypto) (n : NetworkId) (inputs : BridgeInputs) (e : BridgeEvent) (new : List HandlerCall) :
    Option Session → Option Session → Prop
  | absent (hsent : sentIn n new = []) : Stepped crypto n inputs e new none none
  | moved {s t : Session} (hmoved : Moved crypto n e new s t) : Stepped crypto n inputs e new (some s) (some t)
  | dropped {s : Session} (hdrops : Drops n e) (hsent : sentIn n new = []) : Stepped crypto n inputs e new (some s) none
  | created {before : Option Session} {t : Session} {identity : PacketIdentitySnapshot}
      {networks : List ActiveNetworkPacketState} {network : ActiveNetworkPacketState} (i : ℕ)
      (he : e = .synchronize (some identity) networks) (hchecked : checkNetworks [] networks = .ok ())
      (hmem : network ∈ networks) (hid : network.peers.networkId = n)
      (hnew : ∀ s, before = some s → ¬ keepsSession s identity network) (hstate : checkState network = .ok ())
      (hcreated : created crypto (inputs.noncePrefixes i) identity network = .ok t) (hsent : sentIn n new = []) :
      Stepped crypto n inputs e new before (some t)

theorem stepped_refl (crypto : PacketCrypto) (n : NetworkId) (inputs : BridgeInputs) (e : BridgeEvent) (x : Option Session) :
    Stepped crypto n inputs e [] x x := by
  cases x with
  | none => exact .absent rfl
  | some s => exact .moved ⟨rfl, rfl, rfl, rfl, [], by simp, rfl, rfl⟩

theorem stepped_carried {n : NetworkId} {new : List HandlerCall} {x y : Option Session} (inputs : BridgeInputs) (e : BridgeEvent)
    (h : Carried crypto n new x y) : Stepped crypto n inputs e new x y := by
  unfold Carried at h
  rcases x with _ | s <;> rcases y with _ | t <;> try contradiction
  · exact .absent h
  · obtain ⟨ps, hsame, hcipher, hsent⟩ := h
    refine .moved ⟨hsame.key, hsame.ownSignedKey, hsame.ownDeviceId, by rw [hsame.peers], ps.map .encrypt, ?_, hcipher, hsent⟩
    intro op hop
    obtain ⟨p, -, rfl⟩ := List.mem_map.1 hop
    trivial

theorem stepped_turned {inputs : BridgeInputs} {identity : PacketIdentitySnapshot} {networks : List ActiveNetworkPacketState}
    {n : NetworkId} {x y : Option Session} (hchecked : checkNetworks [] networks = .ok ())
    (h : Turned crypto inputs identity networks n x y) :
    Stepped crypto n inputs (.synchronize (some identity) networks) [] x y := by
  cases h with
  | kept hmem hid hbefore hkeeps hrefreshed =>
    rename_i s t network
    subst hbefore
    rcases refreshed_ok hrefreshed with ⟨hcipher, hkey, hsigned, hdevice, hpeers⟩ | ⟨rfl, -⟩
    · have haddress : s.peers.ownAddress = network.peers.ownAddress := by
        simp only [keepsSession, Bool.and_eq_true, decide_eq_true_eq] at hkeeps
        exact hkeeps.1.2
      refine .moved ⟨hkey, hsigned, hdevice, by rw [hpeers, haddress], [.updatePeers network.peers], ?_, hcipher, rfl⟩
      intro op hop
      rw [List.mem_singleton] at hop
      subst hop
      exact ⟨identity, networks, network, rfl, hchecked, hmem, hid, rfl, hkeeps⟩
    · exact stepped_refl crypto n inputs _ _
  | created i hmem hid hnew hstate hcreated => exact .created i rfl hchecked hmem hid hnew hstate hcreated rfl

/-- What one call does to the session of a network. -/
theorem stepped (hl : crypto.Lawful) (hw : Wf crypto b) (e : BridgeInputs × BridgeEvent) (n : NetworkId) :
    ∃ new, (b.step crypto e).calls = b.calls ++ new ∧
      Stepped crypto n e.1 e.2 new (b.sessions.lookup n) ((b.step crypto e).sessions.lookup n) := by
  obtain ⟨inputs, e⟩ := e
  have hcarries : Carries crypto b (b.step crypto (inputs, e)) → ∃ new, (b.step crypto (inputs, e)).calls = b.calls ++ new ∧
      Stepped crypto n inputs e new (b.sessions.lookup n) ((b.step crypto (inputs, e)).sessions.lookup n) := by
    rintro ⟨new, hnew, hn⟩
    exact ⟨new, hnew, stepped_carried inputs e (hn n)⟩
  cases e with
  | synchronize identity networks =>
    obtain ⟨hcalls, hcases⟩ := synchronize_cases crypto inputs identity networks b n
    refine ⟨[], by simpa [step] using hcalls, ?_⟩
    simp only [step]
    rcases hcases with hsame | ⟨hnone, hdrops⟩ | ⟨i, rfl, hchecked, hturned⟩
    · rw [hsame]
      exact stepped_refl crypto n inputs _ _
    · rw [hnone]
      cases b.sessions.lookup n with
      | none => exact .absent rfl
      | some s =>
        refine .dropped ?_ rfl
        cases identity with
        | none => trivial
        | some i => exact hdrops.resolve_left (by simp)
    · exact stepped_turned hchecked hturned
  | clear =>
    refine ⟨[], by simp [step, clear], ?_⟩
    have hnone : (b.step crypto (inputs, .clear)).sessions.lookup n = none := rfl
    rw [hnone]
    cases b.sessions.lookup n with
    | none => exact .absent rfl
    | some s => exact .dropped trivial rfl
  | inbound delivery =>
    simp only [step]
    rcases inbound_cases hl hw inputs delivery with ⟨-, heq⟩ | ⟨s, hs, ⟨e, -, heq⟩ | ⟨plaintext, c, hdecrypt, new, hnew, hn⟩⟩
    · rw [heq]
      exact ⟨[], by simp, stepped_refl crypto n inputs _ _⟩
    · rw [heq]
      refine ⟨[], by simp, ?_⟩
      dsimp only
      rw [Map.lookup_insert]
      split
      · rename_i hnetwork
        rw [hnetwork, hs]
        exact stepped_refl crypto _ inputs _ _
      · exact stepped_refl crypto n inputs _ _
    · refine ⟨new, hnew, ?_⟩
      have hcarried := hn n
      dsimp only at hcarried
      rw [Map.lookup_insert] at hcarried
      split at hcarried
      · -- the session of the packet: first the call of `decrypt`, then those of `encrypt`
        rename_i hnetwork
        rw [hnetwork, hs]
        cases ht : (inbound crypto inputs delivery b).2.sessions.lookup delivery.packet.networkId with
        | none =>
          rw [hnetwork, ht] at hcarried
          exact hcarried.elim
        | some t =>
          rw [hnetwork, ht] at hcarried
          obtain ⟨ps, hsame, hcipher, hsent⟩ := hcarried
          have hstep : c = s.cipher.step crypto (.decrypt delivery.packet delivery.senderDeviceId) :=
            (congrArg Prod.snd hdecrypt).symm
          refine .moved ⟨hsame.key, hsame.ownSignedKey, hsame.ownDeviceId, by rw [hsame.peers],
            .decrypt delivery.packet delivery.senderDeviceId :: ps.map .encrypt, ?_, ?_, ?_⟩
          · intro op hop
            rcases List.mem_cons.1 hop with rfl | hop
            · exact ⟨rfl, delivery, rfl, rfl, rfl⟩
            · obtain ⟨p, -, rfl⟩ := List.mem_map.1 hop
              trivial
          · rw [hcipher, hstep]
            rfl
          · rw [hsent, hstep]
            rfl
      · exact stepped_carried inputs _ hcarried
  | setMtu mtu => exact hcarries (carries_step hl hw inputs (by simp) (by simp) (by simp))
  | setRoutingOptions acceptRoutes forward => exact hcarries (carries_step hl hw inputs (by simp) (by simp) (by simp))
  | synchronizeMulticast groups => exact hcarries (carries_step hl hw inputs (by simp) (by simp) (by simp))
  | outbound packet => exact hcarries (carries_step hl hw inputs (by simp) (by simp) (by simp))

theorem Moved.wf {n : NetworkId} {e : BridgeEvent} {new : List HandlerCall} {s t : Session} (h : Moved crypto n e new s t)
    (hl : crypto.Lawful) (hw : SessionWf crypto n s) : SessionWf crypto n t := by
  obtain ⟨ops, -, hcipher, -⟩ := h.ops
  obtain ⟨hwf, hsame⟩ := NetworkPacketCipher.wf_run hl hw.cipher ops
  rw [← hcipher] at hwf hsame
  constructor
  · exact hwf
  · rw [hsame.networkId, hw.networkId]
  · rw [hsame.keyEpoch, hw.keyEpoch, h.key]
  · rw [hsame.networkKey, hw.networkKey, h.key]
  · rw [hsame.ownDeviceId, hw.ownDeviceId, h.ownDeviceId]
  · rw [hsame.ownSessionPublicKey, hw.ownSession, h.ownSignedKey]
  · rw [hsame.ownIpv4Address, hw.ownAddress, h.ownAddress]

theorem wf_step (hl : crypto.Lawful) (hw : Wf crypto b) (e : BridgeInputs × BridgeEvent) : Wf crypto (b.step crypto e) := by
  intro n t ht
  obtain ⟨new, -, hstepped⟩ := stepped hl hw e n
  rw [ht] at hstepped
  generalize hx : b.sessions.lookup n = x at hstepped
  cases hstepped with
  | moved hmoved => exact hmoved.wf hl (hw n _ hx)
  | created i he hchecked hmem hid hnew hstate hcreated hsent => exact sessionWf_created hid hstate hcreated

theorem wf_run (hl : crypto.Lawful) (events : ℕ → BridgeInputs × BridgeEvent) (k : ℕ) : Wf crypto (run crypto events k) := by
  induction k with
  | zero =>
    intro n s hs
    cases hs
  | succ k ih => exact wf_step hl ih _

end VirtualPacketBridge

end LanLink
