import LanLink.Auth.KeyEnvelopes
import LanLink.Transport.PacketBridge
/-!
# The client's peer cache

`QuicClient` (`transport/quic.cpp`) caches, for each network the relay told it
of, the last peer state, its revision, the network key and the lease of a
managed network's policy. Everything here runs under `peer_state_mutex_`, save
the publication of keys, which no part of the cache depends on.
-/
open LanLink.Lib

namespace LanLink

structure NetworkPeerStateReply where
  code : NetworkResultCode
  state : Option NetworkPeerState := none
  deriving DecidableEq, Repr

/-- The frames that answer a peer state request. -/
inductive PeerStateFrame
  | state (state : NetworkPeerState)
  | operation (result : NetworkOperationResult)
  deriving DecidableEq, Repr

structure QuicClient where
  identity : DeviceIdentity
  authenticated : Bool := false
  stopRequested : Bool := false
  ownSignedKey : Option SignedDeviceKey := none
  peerStates : Map NetworkId NetworkPeerState := ∅
  policyLeases : Map NetworkId Time := ∅
  networkKeys : Map NetworkId NetworkKeySnapshot := ∅
  peerRevisions : Map NetworkId UInt64 := ∅
  /-- The key publish requests given to `send_client_frame`, oldest first. -/
  published : List (List NetworkKeyEnvelope) := []

/-- What a call of the client reads from outside: the key and the nonces it draws, and whether the connection takes
the frame it sends. -/
structure ClientInputs where
  key : NetworkKey := 0
  nonces : ℕ → BitVec 96 := fun _ => 0
  sends : Bool := true

/-- A member function of the client. -/
abbrev ClientCall (α : Type) := Action Exn QuicClient α

def maxPolicyAge : Time := 6000000000

/-- The checks of `encode_network_key_publish_request`. -/
def requireKeyPublish (envelopes : List NetworkKeyEnvelope) : Except Exn Unit := do
  check (¬ (envelopes.isEmpty ∨ maxNetworkPeerEntries < envelopes.length))
    (.invalidArgument "network key publish has invalid recipient count")
  envelopes.forM requireKeyEnvelope

namespace QuicClient
variable (crypto : KeyCrypto) (inputs : ClientInputs)

def verifyPeerKeys (state : NetworkPeerState) : Except Exn Unit :=
  check (state.peers.all fun peer => peer.signedKey.all fun key =>
      verifySignedDeviceKey crypto.toCrypto key peer.deviceId)
    (.runtimeError "network peer has an invalid signed device key")

def clearPeerStates (c : QuicClient) : QuicClient :=
  { c with ownSignedKey := none, networkKeys := ∅, peerStates := ∅, policyLeases := ∅, peerRevisions := ∅ }

/-- Peer messages are dropped. -/
def idle (c : QuicClient) : Bool := !c.authenticated || c.stopRequested

/-! ## Peer states -/

/-- The client knows a later revision, or that this one is revoked. -/
def outdated (state : NetworkPeerState) (c : QuicClient) : Bool :=
  match c.peerRevisions.lookup state.networkId with
  | none => false
  | some found =>
    state.revision < found || (state.revision = found && (c.peerStates.lookup state.networkId).isNone)

/-- `network_keys_` without a key of another epoch. -/
def keysOfEpoch (state : NetworkPeerState) (c : QuicClient) : Map NetworkId NetworkKeySnapshot :=
  match c.networkKeys.lookup state.networkId with
  | none => c.networkKeys
  | some current => if current.epoch ≠ state.keyEpoch then c.networkKeys.erase state.networkId else c.networkKeys

/-- The owner draws a key where it has none. -/
def keysFor (state : NetworkPeerState) (c : QuicClient) : Map NetworkId NetworkKeySnapshot :=
  let keys := c.keysOfEpoch state
  if state.ownerDeviceId = c.identity.deviceId crypto ∧ keys.lookup state.networkId = none then
    keys.insert state.networkId { epoch := state.keyEpoch, key := inputs.key }
  else keys

/-- A lease goes with the exact state it was granted for. -/
def leasesFor (state : NetworkPeerState) (c : QuicClient) : Map NetworkId Time :=
  if state.policy.isSome ∧ c.peerStates.lookup state.networkId ≠ some state then c.policyLeases.erase state.networkId
  else c.policyLeases

def storePeerState (state : NetworkPeerState) (c : QuicClient) : QuicClient :=
  { c with
    networkKeys := c.keysFor crypto inputs state
    policyLeases := c.leasesFor state
    peerRevisions := c.peerRevisions.insert state.networkId state.revision
    peerStates := c.peerStates.insert state.networkId state }

/-- The envelopes the owner seals; a peer whose envelope fails is skipped. -/
def sealEnvelopes (identity : DeviceIdentity) (encryptionKey : DeviceEncryptionKey) (state : NetworkPeerState)
    (key : NetworkKey) : List NetworkKeyEnvelope :=
  state.peers.zipIdx.filterMap fun (peer, i) =>
    match peer.signedKey with
    | none => none
    | some recipientKey =>
      (sealNetworkKey crypto (inputs.nonces i) identity encryptionKey recipientKey peer.deviceId state.networkId
        state.keyEpoch key).toOption

/-- `send_client_frame` with a key publish request. -/
def publish (envelopes : List NetworkKeyEnvelope) : ClientCall Unit := do
  if envelopes.isEmpty then pure ()
  else
    Action.lift (requireKeyPublish envelopes)
    if inputs.sends then Action.modify fun c => { c with published := c.published ++ [envelopes] }
    else Action.throw (.runtimeError "network key publication send failed")

/-- The critical section: the key to publish, if the client owns the network and took the state. -/
def takePeerState (state : NetworkPeerState) (c : QuicClient) : Option NetworkKey × QuicClient :=
  if c.idle ∨ c.outdated state then (none, c)
  else
    let c' := c.storePeerState crypto inputs state
    if state.ownerDeviceId = c.identity.deviceId crypto then
      ((c'.networkKeys.lookup state.networkId).map (·.key), c')
    else (none, c')

/-- The checks before the critical section. -/
def requireTracked (state : NetworkPeerState) : Except Exn Unit := do
  verifyPeerKeys crypto state
  check (¬ (state.keyEpoch = 0 ∨ state.ownerDeviceId = 0))
    (.runtimeError "network peer state has no key owner or epoch")

def applyPeerState (encryptionKey : DeviceEncryptionKey) (state : NetworkPeerState) : ClientCall Unit := do
  Action.lift (requireTracked crypto state)
  match ← Action.update (takePeerState crypto inputs state) with
  | none => pure ()
  | some key =>
    let identity ← Action.gets (·.identity)
    publish inputs (sealEnvelopes crypto inputs identity encryptionKey state key)

/-- The client knows a later revision. -/
def superseded (revocation : NetworkPeerRevocation) (c : QuicClient) : Bool :=
  match c.peerRevisions.lookup revocation.networkId with
  | none => false
  | some found => revocation.revision < found

def dropPeerState (revocation : NetworkPeerRevocation) (c : QuicClient) : QuicClient :=
  { c with
    peerRevisions := c.peerRevisions.insert revocation.networkId revocation.revision
    networkKeys := c.networkKeys.erase revocation.networkId
    peerStates := c.peerStates.erase revocation.networkId
    policyLeases := c.policyLeases.erase revocation.networkId }

def applyPeerRevocation (revocation : NetworkPeerRevocation) : ClientCall Unit := Action.modify fun c =>
  if c.idle ∨ c.superseded revocation then c else c.dropPeerState revocation

/-! ## Network keys -/

/-- The cached state is the one the envelope was sealed under. -/
def expects (e : NetworkKeyEnvelope) (c : QuicClient) : Bool :=
  !c.idle && (c.peerStates.lookup e.networkId).any fun found =>
    found.keyEpoch = e.epoch && found.ownerDeviceId = e.ownerDeviceId

/-- The first critical section: the owner's session key; `none` if the envelope is dropped. -/
def envelopeOwner (e : NetworkKeyEnvelope) (c : QuicClient) : Except Exn (Option SignedDeviceKey) :=
  if ¬ c.expects e then .ok none
  else
    match (c.peerStates.lookup e.networkId).bind fun found =>
        (found.peers.find? fun peer => peer.deviceId = e.ownerDeviceId).bind (·.signedKey) with
    | none => .error (.runtimeError "network key owner is not authenticated")
    | some key => .ok (some key)

/-- The second critical section, with the key that was opened. -/
def storeNetworkKey (e : NetworkKeyEnvelope) (key : NetworkKey) : ClientCall Unit := fun c =>
  if ¬ c.expects e then (.ok (), c)
  else
    match c.networkKeys.lookup e.networkId with
    | some current =>
      if current.epoch = e.epoch then
        if current.key ≠ key then (.error (.runtimeError "network key conflicts with current epoch"), c)
        else (.ok (), c)
      else (.ok (), { c with networkKeys := c.networkKeys.insert e.networkId { epoch := e.epoch, key } })
    | none => (.ok (), { c with networkKeys := c.networkKeys.insert e.networkId { epoch := e.epoch, key } })

def applyNetworkKeyEnvelope (encryptionKey : DeviceEncryptionKey) (e : NetworkKeyEnvelope) : ClientCall Unit := do
  match ← Action.query (envelopeOwner e) with
  | none => pure ()
  | some ownerKey =>
    let recipient ← Action.gets fun c => c.identity.deviceId crypto
    let key ← Action.lift (openNetworkKey crypto encryptionKey e ownerKey recipient)
    storeNetworkKey e key

/-! ## Leases -/

/-- `policy_current_locked`. -/
def policyCurrent (now : Time) (state : NetworkPeerState) (c : QuicClient) : Bool :=
  match state.policy with
  | none => true
  | some _ =>
    match c.policyLeases.lookup state.networkId with
    | none => false
    | some lease => now - lease < maxPolicyAge

/-- The critical section of `fetch_peer_state`; an absent lease reads as the clock's epoch. -/
def renewLease (id : NetworkId) (requested : Time) (state : NetworkPeerState) (c : QuicClient) : QuicClient :=
  if c.peerStates.lookup id = some state ∧ state.policy.isSome then
    { c with policyLeases := c.policyLeases.insert id (max (c.policyLeases.getD id 0) requested) }
  else c

/-- What `fetch_peer_state` does with the answer to its request, sent at `requested`. -/
def fetchPeerState (id : NetworkId) (requested : Time) : PeerStateFrame → ClientCall NetworkPeerStateReply
  | .state state => do
    Action.lift (verifyPeerKeys crypto state)
    Action.modify (renewLease id requested state)
    pure { code := .success, state := some state }
  | .operation result => pure { code := result.code }

/-! ## What the cache is read for -/

def cachedPeerState (now : Time) (id : NetworkId) (c : QuicClient) : Option NetworkPeerState :=
  match c.peerStates.lookup id with
  | none => none
  | some found => if c.policyCurrent now found then some found else none

def cachedPeerStates (now : Time) (c : QuicClient) : List NetworkPeerState :=
  (c.peerStates.rows.mergeSort fun a b => a.1 ≤ b.1).filterMap fun row =>
    if c.policyCurrent now row.2 then some row.2 else none

def cachedNetworkKey (now : Time) (id : NetworkId) (c : QuicClient) : Option NetworkKeySnapshot :=
  match c.peerStates.lookup id with
  | none => c.networkKeys.lookup id
  | some peers => if c.policyCurrent now peers then c.networkKeys.lookup id else none

def cachedPacketIdentity (c : QuicClient) : Option PacketIdentitySnapshot :=
  match c.ownSignedKey with
  | none => none
  | some signedKey =>
    if c.authenticated then some { deviceId := c.identity.deviceId crypto, signedKey } else none

/-- The check of `send_encrypted_packet`. -/
def requireActiveKey (now : Time) (packet : EncryptedNetworkPacket) (c : QuicClient) : Except Exn Unit := do
  requirePacket packet
  check ((c.peerStates.lookup packet.networkId).any fun state =>
      c.policyCurrent now state && state.keyEpoch = packet.keyEpoch && state.ownAddress ≠ packet.destinationIpv4 &&
        (c.networkKeys.lookup packet.networkId).any fun key => key.epoch = packet.keyEpoch)
    (.runtimeError "encrypted packet has no active network key")

/-- `handle_forwarded_packet` queues the delivery for the packet handler. -/
def acceptsDelivery (now : Time) (delivery : ForwardedNetworkPacket) (c : QuicClient) : Bool :=
  (c.peerStates.lookup delivery.packet.networkId).any fun found =>
    c.policyCurrent now found && found.keyEpoch = delivery.packet.keyEpoch &&
      (found.ownAddress = delivery.packet.destinationIpv4 ||
        isIpv4FanoutDestination delivery.packet.destinationIpv4 found.subnetAddress found.prefixLength) &&
      found.peers.any fun peer => peer.deviceId = delivery.senderDeviceId && peer.signedKey.isSome

/-! ## What the messages change -/

variable {crypto} {inputs}

theorem publish_state (envelopes : List NetworkKeyEnvelope) (c : QuicClient) :
    ∃ published, (publish inputs envelopes c).2 = { c with published } := by
  unfold publish
  by_cases hempty : envelopes.isEmpty
  · rw [if_pos hempty]
    exact ⟨c.published, rfl⟩
  rw [if_neg hempty]
  cases hvalid : requireKeyPublish envelopes with
  | error e => exact ⟨c.published, by simp [bind, Action.bind, Action.lift]⟩
  | ok u =>
    by_cases hsends : inputs.sends
    · exact ⟨c.published ++ [envelopes], by simp [bind, Action.bind, Action.lift, Action.modify, hsends]⟩
    · exact ⟨c.published, by simp [bind, Action.bind, Action.lift, Action.throw, hsends]⟩

/-- A peer state is stored whole, or nothing changes. -/
theorem applyPeerState_state (crypto : KeyCrypto) (inputs : ClientInputs) (encryptionKey : DeviceEncryptionKey)
    (state : NetworkPeerState) (c : QuicClient) :
    if requireTracked crypto state = .ok () ∧ ¬ (c.idle ∨ c.outdated state) then
      ∃ published, (applyPeerState crypto inputs encryptionKey state c).2 =
        { c.storePeerState crypto inputs state with published }
    else (applyPeerState crypto inputs encryptionKey state c).2 = c := by
  cases hvalid : requireTracked crypto state with
  | error e => simp [applyPeerState, bind, Action.bind, Action.lift, hvalid]
  | ok u =>
    by_cases hdrop : c.idle ∨ c.outdated state
    · rw [if_neg fun h => h.2 hdrop]
      simp [applyPeerState, takePeerState, bind, Action.bind, Action.lift, Action.update, hvalid, hdrop, pure]
    rw [if_pos ⟨rfl, hdrop⟩]
    simp only [applyPeerState, bind, Action.bind, Action.lift, Action.update, hvalid, takePeerState, hdrop, if_false]
    by_cases howner : state.ownerDeviceId = c.identity.deviceId crypto
    · simp only [howner, if_true]
      cases hkey : (c.storePeerState crypto inputs state).networkKeys.lookup state.networkId with
      | none => exact ⟨c.published, rfl⟩
      | some key => exact publish_state _ _
    · simp only [howner, if_false]
      exact ⟨c.published, rfl⟩

end QuicClient
end LanLink
