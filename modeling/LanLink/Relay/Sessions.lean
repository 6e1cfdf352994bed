import LanLink.Relay.NetworkService
/-!
# Sessions, peer states and packets

The functions of `NetworkService` around a connected device: its session key,
the lists and peer states it reads, network keys, and packet forwarding.
-/
open LanLink.Lib

namespace LanLink

structure NetworkListOutcome where
  code : NetworkResultCode := .success
  networks : List NetworkSummary := []
  deriving DecidableEq, Repr

structure NetworkPeerStateOutcome where
  code : NetworkResultCode := .success
  state : Option NetworkPeerState := none
  deriving DecidableEq, Repr

structure NetworkKeyPublishOutcome where
  code : NetworkResultCode := .success
  networkId : NetworkId := 0
  envelopes : List NetworkKeyEnvelope := []
  deriving DecidableEq, Repr

structure RoutedEncryptedPacket where
  recipientDeviceId : DeviceId
  delivery : ForwardedNetworkPacket
  deriving DecidableEq, Repr

namespace Service
variable (crypto : Crypto) (inputs : Inputs)

/-! ## Session keys -/

def recordAuthenticatedDevice (actor : DeviceId) (nowMs : ℤ) : Call Unit := do
  Action.lift (requireActorAndTime actor nowMs)
  let allowed ← Action.gets fun s => s.deviceAllowed actor
  if ¬ allowed then Action.throw (.runtimeError "device enrollment revoked")
  else write fun db => db.recordDevice actor nowMs

/-- The owner's key change starts a new key epoch; every change is announced. -/
def announceKey (actor : DeviceId) (network : NetworkRecord) : Call (List RoutedPeerStateChange) :=
  if network.ownerDeviceId = actor then do
    advanceKeyEpoch network.id
    advancedChanges network.id
  else advancedChanges network.id

def publishDeviceKey (actor : DeviceId) (sessionId : SessionId) (signedKey : SignedDeviceKey) (nowMs : ℤ) :
    Call (List RoutedPeerStateChange) := do
  Action.lift (requireActorAndTime actor nowMs)
  Action.lift (check (sessionId ≠ 0 ∧ verifySignedDeviceKey crypto signedKey actor)
    (.invalidArgument "authenticated device key is invalid"))
  write fun db => db.recordDevice actor nowMs
  let allowed ← Action.gets fun s => s.deviceAllowed actor
  if ¬ allowed then Action.throw (.runtimeError "device enrollment revoked")
  else do
    Action.modify fun s => { s with activeKeys := s.activeKeys.insert actor { sessionId, signedKey } }
    let networks ← read fun db => db.listNetworksForDevice actor
    Action.collect (announceKey actor) networks

def dropSession (actor : DeviceId) (s : Service) : Service :=
  { s with
    activeKeys := s.activeKeys.erase actor
    managementCapable := s.managementCapable.erase actor
    senderFanout := s.senderFanout.eraseIf fun key _ => key.2 = actor
    fanoutReplay := s.fanoutReplay.eraseIf fun key _ => key.2 = actor }

def removeDeviceKey (actor : DeviceId) (sessionId : SessionId) : Call (List RoutedPeerStateChange) := do
  let key ← Action.gets fun s => s.activeKeys.lookup actor
  if key.any fun k => k.sessionId = sessionId then do
    Action.modify (dropSession actor)
    let networks ← read fun db => db.listNetworksForDevice actor
    Action.collect (announceKey actor) networks
  else pure []

/-! ## Reads -/

def makeSummary (network : NetworkRecord) (actor : DeviceId) (members : List MembershipRecord) :
    Except Exn NetworkSummary :=
  match findMember members actor with
  | none => .error (.runtimeError "network membership state is inconsistent")
  | some membership => do
    check (members.length < 2 ^ 32) (.runtimeError "network membership state is inconsistent")
    .ok { networkId := network.id, ownerDeviceId := network.ownerDeviceId, owner := membership.role = .owner,
          createdAtMs := network.createdAtMs, memberCount := members.length, name := network.name }

def listNetworks (actor : DeviceId) (nowMs : ℤ) : Call NetworkListOutcome := do
  Action.lift (requireActorAndTime actor nowMs)
  Action.tryCatch
    (do
      write fun db => db.recordDevice actor nowMs
      let networks ← read fun db => db.listNetworksForDevice actor
      if maxNetworkListEntries < networks.length then pure { code := .limitReached }
      else do
        let summaries ← read fun db => networks.mapM fun network => do
          let members ← db.listMembers network.id
          makeSummary network actor members
        pure { networks := summaries })
    (fun _ => pure { code := .internalError })

def peerState (actor : DeviceId) (request : NetworkSelectionRequest) (nowMs : ℤ) : Call NetworkPeerStateOutcome := do
  Action.lift (requireActorAndTime actor nowMs)
  Action.lift (requireSelectionRequest request)
  let n := request.networkId
  Action.tryCatch
    (do
      write fun db => db.recordDevice actor nowMs
      let network ← read fun db => db.findNetwork n
      if network.isNone then pure { code := .notFound }
      else do
        let lease ← read fun db => db.findVirtualIpv4Lease n actor
        if lease.isNone then pure { code := .notMember }
        else do
          let state ← Action.query fun s => s.makePeerState n actor (s.revisionFor n)
          pure { state := some state })
    (fun _ => pure { code := .internalError })

def peerStatesForDevice (actor : DeviceId) : Call (List RoutedPeerStateChange) := do
  Action.lift (check (actor ≠ 0) (.invalidArgument "peer state requires an authenticated device"))
  let networks ← read fun db => db.listNetworksForDevice actor
  Action.query fun s => networks.mapM fun network => do
    let state ← s.makePeerState network.id actor (s.revisionFor network.id)
    .ok { recipientDeviceId := actor, state := some state }

/-- The checks of one envelope, given the recipients of the earlier ones. -/
def checkEnvelope (s : Service) (n : NetworkId) (actor : DeviceId) (ownerKey : ActiveKey) (managed : Bool)
    (recipients : List DeviceId) (e : NetworkKeyEnvelope) : Except NetworkResultCode Unit := do
  check (e.networkId = n ∧ e.ownerDeviceId = actor ∧ e.recipientDeviceId ≠ actor ∧
    ¬ recipients.contains e.recipientDeviceId ∧ ownerKey.signedKey.encryptionPublicKey = e.ownerEncryptionPublicKey ∧
    verifyNetworkKeyEnvelope crypto e ownerKey.signedKey.identityPublicKey) .invalidRequest
  check (e.epoch = s.keyEpochFor n) .conflict
  check (managed → e.recipientDeviceId ∈ s.managementCapable) .permissionDenied
  check ((n, e.recipientDeviceId) ∈ s.store.leases ∧
    (s.activeKeys.lookup e.recipientDeviceId).any fun k =>
      k.signedKey.encryptionPublicKey = e.recipientEncryptionPublicKey) .targetNotFound

def checkEnvelopes (s : Service) (n : NetworkId) (actor : DeviceId) (ownerKey : ActiveKey) (managed : Bool) :
    List DeviceId → List NetworkKeyEnvelope → Except NetworkResultCode Unit
  | _, [] => .ok ()
  | recipients, e :: envelopes => do
    checkEnvelope crypto s n actor ownerKey managed recipients e
    checkEnvelopes s n actor ownerKey managed (e.recipientDeviceId :: recipients) envelopes

def publishNetworkKeys (actor : DeviceId) (envelopes : List NetworkKeyEnvelope) : Call NetworkKeyPublishOutcome :=
  match envelopes with
  | [] => pure { code := .invalidRequest }
  | first :: _ =>
    if actor = 0 ∨ maxNetworkPeerEntries < envelopes.length then pure { code := .invalidRequest }
    else do
      let n := first.networkId
      let network ← read fun db => db.findNetwork n
      match network with
      | none => pure { code := .notFound, networkId := n }
      | some network =>
        Action.query fun s =>
          let managed := (s.store.networkPolicy n).managed
          if managed ∧ actor ∉ s.managementCapable then .ok { code := .permissionDenied, networkId := n }
          else match s.activeKeys.lookup actor with
            | none => .ok { code := .permissionDenied, networkId := n }
            | some ownerKey =>
              if network.ownerDeviceId ≠ actor then .ok { code := .permissionDenied, networkId := n }
              else match checkEnvelopes crypto s n actor ownerKey managed [] envelopes with
                | .error code => .ok { code, networkId := n }
                | .ok () => .ok { networkId := n, envelopes }

def authorizePeerExchange (s : Service) (actor : DeviceId) (x : CandidateExchange) : Except Exn Bool :=
  if ¬ s.deviceAllowed actor ∨ ¬ s.deviceAllowed x.recipient ∨ actor ≠ x.sender ∨ actor = x.recipient ∨
      ¬ s.trafficAllowed x.networkId actor x.recipient false then .ok false
  else do
    let own ← s.store.findVirtualIpv4Lease x.networkId actor
    let other ← s.store.findVirtualIpv4Lease x.networkId x.recipient
    .ok (own.isSome && other.isSome && s.keyEpochFor x.networkId = x.keyEpoch &&
      ((s.activeKeys.lookup actor).any fun k => k.signedKey.encryptionPublicKey = x.senderSession) &&
      ((s.activeKeys.lookup x.recipient).any fun k => k.signedKey.encryptionPublicKey = x.recipientSession))

/-! ## Packets -/

def replenish (now : Time) (capacity perSecond : ℚ) (b : FanoutBucket) : FanoutBucket :=
  if ¬ b.initialized then { tokens := capacity, updated := now, initialized := true }
  else if b.updated < now then
    { b with tokens := min capacity (b.tokens + toSeconds (now - b.updated) * perSecond), updated := now }
  else { b with updated := now }

/-- The first eight bytes of the nonce. -/
def noncePrefix (p : EncryptedNetworkPacket) : BitVec 64 := p.nonce.extractLsb' 32 64

/-- The window of the sender's current epoch and session. -/
def currentReplay (r : FanoutReplay) (epoch : UInt64) (sessionKey : EncryptionPublicKey) : FanoutReplay :=
  if r.epoch ≠ epoch ∨ r.sessionKey ≠ sessionKey then { epoch, sessionKey } else r

def replayed (r : FanoutReplay) (p : EncryptedNetworkPacket) : Bool :=
  r.highest ≠ 0 && (r.noncePrefix ≠ noncePrefix p ||
    (p.sequence ≤ r.highest && (64 ≤ r.highest - p.sequence ||
      (r.seen &&& (1 <<< (r.highest - p.sequence).toUInt64)) ≠ 0)))

def markSeen (r : FanoutReplay) (p : EncryptedNetworkPacket) : FanoutReplay :=
  let r := if r.highest = 0 then { r with noncePrefix := noncePrefix p } else r
  if r.highest < p.sequence then
    let distance := p.sequence - r.highest
    { r with
      seen := if 64 ≤ distance then 1 else (r.seen <<< distance.toUInt64) ||| 1
      highest := p.sequence }
  else { r with seen := r.seen ||| (1 <<< (r.highest - p.sequence).toUInt64) }

def deliver (actor : DeviceId) (p : EncryptedNetworkPacket) (recipient : DeviceId) : RoutedEncryptedPacket :=
  { recipientDeviceId := recipient, delivery := { senderDeviceId := actor, packet := p } }

/-- A packet to one address. -/
def routeUnicast (s : Service) (actor : DeviceId) (p : EncryptedNetworkPacket) (leases : List LeaseRecord) :
    List RoutedEncryptedPacket × Service :=
  match leases.find? (·.address = p.destinationIpv4) with
  | none => ([], s)
  | some destination =>
    if destination.deviceId ∉ s.activeKeys ∨ ¬ s.trafficAllowed p.networkId actor destination.deviceId false then ([], s)
    else match s.quota.admits actor p.networkId (forwardedSize p) 1 inputs.now with
      | (false, quota) => ([], { s with quota })
      | (true, quota) => ([deliver actor p destination.deviceId], { s with quota })

/-- The recipients of a packet to a fan-out address. -/
def fanoutRecipients (s : Service) (actor : DeviceId) (p : EncryptedNetworkPacket) (leases : List LeaseRecord) :
    List DeviceId :=
  (leases.filter fun lease => lease.deviceId ≠ actor && decide (lease.deviceId ∈ s.activeKeys) &&
    s.trafficAllowed p.networkId actor lease.deviceId true).map (·.deviceId)

/-- Charge the limiters for `count` deliveries: whether they had enough. -/
def chargeFanout (s : Service) (actor : DeviceId) (p : EncryptedNetworkPacket) (count : ℕ) : Bool × Service :=
  let senderBucket := replenish inputs.now 16 8 (s.senderFanout.getD (p.networkId, actor) {})
  let networkBucket := replenish inputs.now 256 128 (s.networkFanout.getD p.networkId {})
  let s := { s with
    senderFanout := s.senderFanout.insert (p.networkId, actor) senderBucket
    networkFanout := s.networkFanout.insert p.networkId networkBucket }
  if senderBucket.tokens < 1 ∨ networkBucket.tokens < count then (false, s)
  else match s.quota.admits actor p.networkId (forwardedSize p) count inputs.now with
    | (false, quota) => (false, { s with quota })
    | (true, quota) => (true, { s with
        quota
        senderFanout := s.senderFanout.insert (p.networkId, actor) { senderBucket with tokens := senderBucket.tokens - 1 }
        networkFanout := s.networkFanout.insert p.networkId { networkBucket with tokens := networkBucket.tokens - count } })

/-- A packet to a broadcast or multicast address. -/
def routeFanout (s : Service) (actor : DeviceId) (key : ActiveKey) (p : EncryptedNetworkPacket)
    (leases : List LeaseRecord) : List RoutedEncryptedPacket × Service :=
  if 1400 < p.ciphertext.length then ([], s)
  else
    let replay := currentReplay (s.fanoutReplay.getD (p.networkId, actor) {}) p.keyEpoch key.signedKey.encryptionPublicKey
    let s := { s with fanoutReplay := s.fanoutReplay.insert (p.networkId, actor) replay }
    if replayed replay p then ([], s)
    else
      let recipients := s.fanoutRecipients actor p leases
      if recipients = [] then ([], s)
      else match s.chargeFanout inputs actor p recipients.length with
        | (false, s) => ([], s)
        | (true, s) => (recipients.map (deliver actor p),
            { s with fanoutReplay := s.fanoutReplay.insert (p.networkId, actor) (markSeen replay p) })

/-- The packet may be forwarded: what is known of the sender and the subnet. -/
def admittedSender (s : Service) (actor : DeviceId) (p : EncryptedNetworkPacket) : Option (ActiveKey × SubnetAddress) :=
  match s.store.networks.lookup p.networkId, s.activeKeys.lookup actor, s.store.leases.lookup (p.networkId, actor),
    s.store.subnets.lookup p.networkId with
  | some _, some key, some sender, some subnet =>
    if p.keyEpoch ≠ s.keyEpochFor p.networkId ∨ sender.val = p.destinationIpv4 then none else some (key, subnet)
  | _, _, _, _ => none

def routeEncryptedPacket (actor : DeviceId) (p : EncryptedNetworkPacket) : Call (List RoutedEncryptedPacket) := do
  let allowed ← Action.gets fun s => s.deviceAllowed actor
  if actor = 0 ∨ ¬ allowed then pure []
  else do
    Action.lift (requirePacket p)
    let sender ← Action.gets fun s => s.admittedSender actor p
    match sender with
    | none => pure []
    | some (key, subnet) => do
      let leases ← read fun db => db.listVirtualIpv4Leases p.networkId
      if isIpv4FanoutDestination p.destinationIpv4 subnet.val virtualIpv4PrefixLength then
        Action.update fun s => s.routeFanout inputs actor key p leases
      else Action.update fun s => s.routeUnicast inputs actor p leases

end Service

end LanLink
