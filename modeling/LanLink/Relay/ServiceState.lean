import LanLink.Lib.Actions
import LanLink.Relay.ForwardingQuota
import LanLink.Storage.RelayStore
/-!
# State of the network service

`NetworkService` holds the store and, in memory, key epochs, peer-state
revisions, active keys, capabilities and limiters. An operation runs under the
service's mutex, so it is one `Action` on the whole state. Here are the state
and the functions the operations share: counters, peer states, permissions and
the audit trail.
-/
open LanLink.Lib

namespace LanLink

structure ActiveKey where
  sessionId : SessionId
  signedKey : SignedDeviceKey
  deriving DecidableEq, Repr

structure AccessWindow where
  start : Time
  attempts : ℕ
  deriving DecidableEq, Repr

structure FanoutBucket where
  tokens : ℚ := 0
  updated : Time := 0
  initialized : Bool := false
  deriving DecidableEq, Repr

structure FanoutReplay where
  epoch : UInt64 := 0
  sessionKey : EncryptionPublicKey := 0
  noncePrefix : BitVec 64 := 0
  highest : UInt32 := 0
  seen : UInt64 := 0
  deriving DecidableEq, Repr

/-- What the process keeps about networks and devices, lost at a restart. -/
structure Live where
  revisions : Map NetworkId UInt64 := ∅
  keyEpochs : Map NetworkId UInt64 := ∅
  activeKeys : Map DeviceId ActiveKey := ∅
  managementCapable : Finset DeviceId := ∅

/-- The service: its store, the live part, and the limiters. -/
structure Service extends Live where
  store : Db := {}
  accessAttempts : Map (NetworkId × DeviceId) AccessWindow := ∅
  auditDenials : Map DeviceId Time := ∅
  auditWriteFailures : UInt64 := 0
  quota : ForwardingQuota := {}
  senderFanout : Map (NetworkId × DeviceId) FanoutBucket := ∅
  networkFanout : Map NetworkId FanoutBucket := ∅
  fanoutReplay : Map (NetworkId × DeviceId) FanoutReplay := ∅

/-- A member function of the service. -/
abbrev Call (α : Type) := Action Exn Service α

/-- A read of the store. -/
def read {α : Type} (f : Db → Except Exn α) : Call α := Action.query fun s => f s.store

/-- A write of the store; one that throws was rolled back. -/
def write {α : Type} (f : Db → Except Exn (α × Db)) : Call α := fun s =>
  match f s.store with
  | .ok (a, db) => (.ok a, { s with store := db })
  | .error e => (.error e, s)

/-- The tables of the store. -/
def Service.tables (s : Service) : Tables := s.store.toTables

structure RoutedNetworkEvent where
  recipientDeviceId : DeviceId
  event : NetworkEvent
  deriving DecidableEq, Repr

structure RoutedPeerStateChange where
  recipientDeviceId : DeviceId
  state : Option NetworkPeerState
  revocation : NetworkPeerRevocation := {}
  deriving DecidableEq, Repr

structure NetworkOperationOutcome where
  result : NetworkOperationResult
  events : List RoutedNetworkEvent := []
  peerChanges : List RoutedPeerStateChange := []
  deriving DecidableEq, Repr

def requireActorAndTime (actor : DeviceId) (nowMs : ℤ) : Except Exn Unit := do
  check (actor ≠ 0) (.invalidArgument "network operation requires an authenticated device")
  check (0 ≤ nowMs) (.invalidArgument "network operation timestamp must not be negative")

/-- The target of an invitation, approval or kick; a zero network id throws. -/
def validMemberRequest (q : NetworkMemberRequest) : Except Exn Bool := do
  requireSelectionRequest ⟨q.networkId⟩
  match requireMemberRequest q with
  | .ok () => .ok true
  | .error _ => .ok false

def operationOutcome (operation : NetworkOperation) (code : NetworkResultCode) (networkId : NetworkId := 0) :
    NetworkOperationOutcome :=
  { result := { operation, code, networkId } }

def findMember (members : List MembershipRecord) (d : DeviceId) : Option MembershipRecord :=
  members.find? (·.deviceId = d)

def routedEvent (recipient : DeviceId) (kind : NetworkEventKind) (networkId : NetworkId) (subject : DeviceId) :
    RoutedNetworkEvent :=
  { recipientDeviceId := recipient, event := { kind, networkId, deviceId := subject } }

def eventsForMembers (members : List MembershipRecord) (excluded : Option DeviceId) (kind : NetworkEventKind)
    (networkId : NetworkId) (subject : DeviceId) : List RoutedNetworkEvent :=
  (members.filter fun m => excluded ≠ some m.deviceId).map fun m => routedEvent m.deviceId kind networkId subject

def networkLimitReached (db : Db) (d : DeviceId) : Except Exn Bool := do
  let networks ← db.listNetworksForDevice d
  .ok (maxNetworkListEntries ≤ networks.length)

namespace Service

/-! ## Counters -/

def revisionFor (s : Service) (n : NetworkId) : UInt64 := s.revisions.getD n 0

def keyEpochFor (s : Service) (n : NetworkId) : UInt64 := s.keyEpochs.getD n 1

def advanceRevision (n : NetworkId) : Call UInt64 := fun s =>
  let revision := s.revisions.getD n 0
  if revision = uint64Max then (.error (.overflowError "network peer state revision exhausted"), s)
  else (.ok (revision + 1), { s with revisions := s.revisions.insert n (revision + 1) })

def advanceKeyEpoch (n : NetworkId) : Call Unit := fun s =>
  let epoch := s.keyEpochs.getD n 0
  if epoch = uint64Max then (.error (.overflowError "network key epoch exhausted"), s)
  else (.ok (), { s with keyEpochs := s.keyEpochs.insert n (epoch + 1) })

/-! ## Permissions -/

def deviceAllowed (s : Service) (d : DeviceId) : Bool := !s.store.deviceRevoked d

/-- Callers have looked the network up and checked the actor, so neither
identifier is zero here. -/
def canManageNetwork (s : Service) (n : NetworkId) (actor : DeviceId) : Bool :=
  match s.store.networks.lookup n with
  | none => false
  | some network =>
    if ¬ s.deviceAllowed actor then false
    else if network.ownerDeviceId = actor then true
    else
      let policy := s.store.networkPolicy n
      policy.managed && decide (actor ∈ s.managementCapable) && decide ((n, actor) ∈ s.store.leases) &&
        policyRole policy actor = .administrator

def trafficAllowed (s : Service) (n : NetworkId) (a b : DeviceId) (fanout : Bool) : Bool :=
  let policy := s.store.networkPolicy n
  (!policy.managed || (decide (a ∈ s.managementCapable) && decide (b ∈ s.managementCapable))) &&
    (if fanout then policyFanoutAllows policy a b else policyAllows policy a b)

/-! ## Peer states -/

def assemblePeerState (n : NetworkId) (subnet : UInt32) (leases : List LeaseRecord) (actor : DeviceId)
    (revision : UInt64) (owner : DeviceId) (keyEpoch : UInt64) (activeKeys : Map DeviceId ActiveKey) :
    Except Exn NetworkPeerState :=
  match leases.find? (·.deviceId = actor) with
  | none => .error (.runtimeError "network virtual IPv4 membership state is inconsistent")
  | some own => do
    check (leases.length ≤ maxNetworkPeerEntries + 1)
      (.runtimeError "network virtual IPv4 membership state is inconsistent")
    .ok { networkId := n, revision, subnetAddress := subnet, prefixLength := virtualIpv4PrefixLength,
          ownAddress := own.address, ownerDeviceId := owner, keyEpoch,
          peers := (leases.filter fun l => l.deviceId ≠ actor).map fun l =>
            { deviceId := l.deviceId, ipv4Address := l.address,
              signedKey := (activeKeys.lookup l.deviceId).map (·.signedKey) } }

def makePeerState (s : Service) (n : NetworkId) (actor : DeviceId) (revision : UInt64) :
    Except Exn NetworkPeerState := do
  let subnet ← s.store.findSubnet n
  let network ← s.store.findNetwork n
  match subnet, network with
  | some subnet, some network => do
    let leases ← s.store.listVirtualIpv4Leases n
    let state ← assemblePeerState n subnet leases actor revision network.ownerDeviceId (s.keyEpochFor n) s.activeKeys
    let policy := s.store.networkPolicy n
    if policy.managed then
      .ok { state with
        policy := some policy
        peers := state.peers.map fun peer =>
          if peer.deviceId ∈ s.managementCapable then peer else { peer with signedKey := none } }
    else .ok state
  | _, _ => .error (.runtimeError "network virtual IPv4 subnet is missing")

def changesForMembers (s : Service) (n : NetworkId) (revision : UInt64) : Except Exn (List RoutedPeerStateChange) := do
  let subnet ← s.store.findSubnet n
  let network ← s.store.findNetwork n
  if subnet.isNone ∨ network.isNone then .error (.runtimeError "network virtual IPv4 subnet is missing")
  else do
    let leases ← s.store.listVirtualIpv4Leases n
    leases.mapM fun lease => do
      let state ← s.makePeerState n lease.deviceId revision
      .ok { recipientDeviceId := lease.deviceId, state := some state }

/-- `changes_for_members(n, advance_revision(n))`. -/
def advancedChanges (n : NetworkId) : Call (List RoutedPeerStateChange) := do
  let revision ← advanceRevision n
  Action.query fun s => s.changesForMembers n revision

/-! ## Audit -/

def minute : ℤ := 60000000000
def second : ℤ := 1000000000

/-- Whether a denial is written: at most one a second for each actor. -/
def admitDenial (s : Service) (actor : DeviceId) (now : Time) : Bool × Service :=
  let denials := s.auditDenials.eraseIf fun _ at' => minute ≤ now - at'
  match denials.lookup actor with
  | some prior =>
    if now - prior < second then (false, { s with auditDenials := denials })
    else (true, { s with auditDenials := denials.insert actor now })
  | none =>
    if 256 ≤ denials.size then (false, { s with auditDenials := denials })
    else (true, { s with auditDenials := denials.insert actor now })

def writeAudit (s : Service) (event : AuditEvent) : Service :=
  match s.store.appendAudit event with
  | .ok (_, db) => { s with store := db }
  | .error _ => { s with auditWriteFailures := s.auditWriteFailures + 1 }

/-- `audit_locked`; `now` is what the time source returns when it is asked. -/
def auditLocked (s : Service) (kind : AuditKind) (actor target : DeviceId) (network : NetworkId)
    (result : NetworkResultCode) (nowMs : ℤ) (now : Time) (revision : UInt64 := 0) : Service :=
  let event : AuditEvent := { timestampMs := nowMs.toNat, networkId := network, actor, target, kind, result,
                              policyRevision := revision }
  if result = .success ∨ result = .pendingApproval then s.writeAudit event
  else if (s.admitDenial actor now).1 then (s.admitDenial actor now).2.writeAudit event
  else (s.admitDenial actor now).2

def outcomeAuditKind : NetworkOperation → Option AuditKind
  | .create => some .networkCreate
  | .join => some .networkJoin
  | .leave => some .networkLeave
  | .invite => some .memberInvite
  | .approve => some .memberApprove
  | .kick => some .memberKick
  | .list | .peerState | .keyPublish => none

def auditNetworkOutcome (s : Service) (actor : DeviceId) (out : NetworkOperationOutcome) (nowMs : ℤ) (now : Time) :
    Service :=
  match outcomeAuditKind out.result.operation with
  | none => s
  | some kind =>
    let target := match out.events with
      | [] => actor
      | event :: _ => event.event.deviceId
    s.auditLocked kind actor target out.result.networkId out.result.code nowMs now

/-- Write the outcome to the audit trail and return it. -/
def audited (actor : DeviceId) (nowMs : ℤ) (now : Time) (out : NetworkOperationOutcome) :
    Call NetworkOperationOutcome := do
  Action.modify fun s => s.auditNetworkOutcome actor out nowMs now
  pure out

end Service

end LanLink
