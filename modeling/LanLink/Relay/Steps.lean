import LanLink.Lib.Runs
import LanLink.Relay.Access
import LanLink.Relay.Management
import LanLink.Relay.Sessions
/-!
# Runs of the service

`Op` is a call of a public function of `NetworkService`, `perform` runs it. A
run is a sequence of calls, each with its inputs, and of restarts: a restart
keeps the store and loses everything else.
-/
open LanLink.Lib

namespace LanLink

inductive Op
  | setForwardingLimits (limits : ForwardingLimits)
  | admitControl (actor : DeviceId)
  | manageNetwork (actor : DeviceId) (request : ManagementRequest) (nowMs : ℤ)
  | setManagementCapable (actor : DeviceId) (capable : Bool)
  | accessRequest (actor : DeviceId) (request : AccessRequest) (nowMs : ℤ)
  | recordAuthenticatedDevice (actor : DeviceId) (nowMs : ℤ)
  | publishDeviceKey (actor : DeviceId) (sessionId : SessionId) (signedKey : SignedDeviceKey) (nowMs : ℤ)
  | removeDeviceKey (actor : DeviceId) (sessionId : SessionId)
  | createNetwork (actor : DeviceId) (request : NetworkCreateRequest) (nowMs : ℤ)
  | listNetworks (actor : DeviceId) (nowMs : ℤ)
  | joinNetwork (actor : DeviceId) (request : NetworkSelectionRequest) (nowMs : ℤ)
  | leaveNetwork (actor : DeviceId) (request : NetworkSelectionRequest) (nowMs : ℤ)
  | inviteMember (actor : DeviceId) (request : NetworkMemberRequest) (nowMs : ℤ)
  | approveMember (actor : DeviceId) (request : NetworkMemberRequest) (nowMs : ℤ)
  | kickMember (actor : DeviceId) (request : NetworkMemberRequest) (nowMs : ℤ)
  | peerState (actor : DeviceId) (request : NetworkSelectionRequest) (nowMs : ℤ)
  | publishNetworkKeys (actor : DeviceId) (envelopes : List NetworkKeyEnvelope)
  | peerStatesForDevice (actor : DeviceId)
  | routeEncryptedPacket (actor : DeviceId) (packet : EncryptedNetworkPacket)
  | authorizePeerExchange (actor : DeviceId) (exchange : CandidateExchange)

/-- What a call returns. -/
inductive Reply
  | done
  | flag (b : Bool)
  | operation (outcome : NetworkOperationOutcome)
  | access (outcome : AccessOutcome)
  | management (outcome : ManagementOutcome)
  | list (outcome : NetworkListOutcome)
  | peerState (outcome : NetworkPeerStateOutcome)
  | keys (outcome : NetworkKeyPublishOutcome)
  | changes (changes : List RoutedPeerStateChange)
  | packets (packets : List RoutedEncryptedPacket)

/-- The result code of a reply; a reply without one reports success. -/
def Reply.code : Reply → NetworkResultCode
  | .operation outcome => outcome.result.code
  | .access outcome => outcome.result.code
  | .management outcome => outcome.result.code
  | .list outcome => outcome.code
  | .peerState outcome => outcome.code
  | .keys outcome => outcome.code
  | .done | .flag _ | .changes _ | .packets _ => .success

/-- Whether a call returned and reported success by the code it carries. -/
def succeeded {α : Type} (code : α → NetworkResultCode) : Except Exn α → Bool
  | .ok a => code a = .success
  | .error _ => false

/-- The device a call is made for. -/
def Op.actor : Op → DeviceId
  | .setForwardingLimits _ => 0
  | .admitControl actor | .manageNetwork actor _ _ | .setManagementCapable actor _ | .accessRequest actor _ _
  | .recordAuthenticatedDevice actor _ | .publishDeviceKey actor _ _ _ | .removeDeviceKey actor _
  | .createNetwork actor _ _ | .listNetworks actor _ | .joinNetwork actor _ _ | .leaveNetwork actor _ _
  | .inviteMember actor _ _ | .approveMember actor _ _ | .kickMember actor _ _ | .peerState actor _ _
  | .publishNetworkKeys actor _ | .peerStatesForDevice actor | .routeEncryptedPacket actor _
  | .authorizePeerExchange actor _ => actor

namespace Service

def setForwardingLimits (limits : ForwardingLimits) : Call Unit := fun s =>
  match s.quota.configure limits with
  | .ok quota => (.ok (), { s with quota })
  | .error e => (.error e, s)

def admitControl (actor : DeviceId) (now : Time) : Call Bool :=
  Action.update fun s => ((s.quota.control actor now).1, { s with quota := (s.quota.control actor now).2 })

/-- Wrap what a call returns. -/
def reply {α : Type} (f : α → Reply) (x : Call α) : Call Reply := do
  let a ← x
  pure (f a)

def perform (crypto : Crypto) (inputs : Inputs) : Op → Call Reply
  | .setForwardingLimits limits => reply (fun _ => .done) (setForwardingLimits limits)
  | .admitControl actor => reply .flag (admitControl actor inputs.now)
  | .manageNetwork actor request nowMs => reply .management (manageNetwork inputs actor request nowMs)
  | .setManagementCapable actor capable => reply .changes (setManagementCapable actor capable)
  | .accessRequest actor request nowMs => reply .access (accessRequest crypto inputs actor request nowMs)
  | .recordAuthenticatedDevice actor nowMs => reply (fun _ => .done) (recordAuthenticatedDevice actor nowMs)
  | .publishDeviceKey actor session key nowMs => reply .changes (publishDeviceKey crypto actor session key nowMs)
  | .removeDeviceKey actor session => reply .changes (removeDeviceKey actor session)
  | .createNetwork actor request nowMs => reply .operation (createNetwork inputs actor request nowMs)
  | .listNetworks actor nowMs => reply .list (listNetworks actor nowMs)
  | .joinNetwork actor request nowMs => reply .operation (joinNetwork inputs actor request nowMs)
  | .leaveNetwork actor request nowMs => reply .operation (leaveNetwork inputs actor request nowMs)
  | .inviteMember actor request nowMs => reply .operation (inviteMember inputs actor request nowMs)
  | .approveMember actor request nowMs => reply .operation (approveMember inputs actor request nowMs)
  | .kickMember actor request nowMs => reply .operation (kickMember inputs actor request nowMs)
  | .peerState actor request nowMs => reply .peerState (peerState actor request nowMs)
  | .publishNetworkKeys actor envelopes => reply .keys (publishNetworkKeys crypto actor envelopes)
  | .peerStatesForDevice actor => reply .changes (peerStatesForDevice actor)
  | .routeEncryptedPacket actor packet => reply .packets (routeEncryptedPacket inputs actor packet)
  | .authorizePeerExchange actor exchange =>
    reply .flag (Action.query fun s => s.authorizePeerExchange actor exchange)

end Service

/-- One step of a run: a call with its inputs, or a restart of the process. -/
inductive Event
  | call (op : Op) (inputs : Inputs)
  | restart

/-- A service started over a store. -/
def Service.fresh (store : Db) : Service := { store }

def Service.step (crypto : Crypto) (s : Service) : Event → Service
  | .call op inputs => (perform crypto inputs op s).2
  | .restart => fresh s.store

/-- What a step replies; a restart replies nothing. -/
def Service.replies (crypto : Crypto) (s : Service) : Event → Except Exn Reply
  | .call op inputs => (perform crypto inputs op s).1
  | .restart => .ok .done

end LanLink
