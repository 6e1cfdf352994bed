import LanLink.Lib.Serials
import LanLink.Protocol.Frames
import LanLink.Relay.Answers
import LanLink.Transport.EventQueue
import LanLink.Transport.PeerCache
/-!
# Control calls of the client

A public function of `QuicClient` that asks the relay something sends a request
frame under a new id and waits. `handle_control_frame` takes what comes from the
relay, finds the call that waits for it by its id, and wakes it. Everything here
runs under the mutex of the connection attempt, save what the peer cache, the
event queue and the candidate inbox are guarded by.
-/
open LanLink.Lib

namespace LanLink

/-- `protocol::capability_request_id`. -/
def capabilityRequestId : UInt32 := 0xffffffff

/-- Ids that `request_control` uses. -/
def controlId (id : UInt32) : Bool := id ≠ 0 && id ≠ capabilityRequestId

/-! ## Calls -/

/-- A call of a public function that asks the relay. -/
inductive ControlCall
  | manage (request : ManagementRequest)
  | access (request : AccessRequest)
  | create (request : NetworkCreateRequest)
  | list
  | join (request : NetworkSelectionRequest)
  | leave (request : NetworkSelectionRequest)
  | invite (request : NetworkMemberRequest)
  | approve (request : NetworkMemberRequest)
  | kick (request : NetworkMemberRequest)
  | peerState (request : NetworkSelectionRequest)
  deriving DecidableEq, Repr

/-- What such a function returns. -/
inductive ControlReply
  | management (result : ManagementResult)
  | access (result : AccessResult)
  | operation (result : NetworkOperationResult)
  | networks (code : NetworkResultCode) (networks : List NetworkSummary)
  | peerState (reply : NetworkPeerStateReply)
  deriving DecidableEq, Repr

namespace ControlCall

/-- The request as the relay decodes it. -/
def request : ControlCall → ControlRequest
  | .manage q => .management (.ok q)
  | .access q => .access (.ok q)
  | .create q => .create (.ok q)
  | .list => .list (.ok ())
  | .join q => .join (.ok q)
  | .leave q => .leave (.ok q)
  | .invite q => .invite (.ok q)
  | .approve q => .approve (.ok q)
  | .kick q => .kick (.ok q)
  | .peerState q => .peerState (.ok q)

def type : ControlCall → MessageType
  | .manage _ => .networkManagementRequest
  | .access _ => .userAccessRequest
  | .create _ => .networkCreateRequest
  | .list => .networkListRequest
  | .join _ => .networkJoinRequest
  | .leave _ => .networkLeaveRequest
  | .invite _ => .networkInviteRequest
  | .approve _ => .networkApproveRequest
  | .kick _ => .networkKickRequest
  | .peerState _ => .networkPeerStateRequest

/-- The operation that is passed to `request_control`. -/
def operation : ControlCall → NetworkOperation
  | .manage _ | .access _ | .list => .list
  | .create _ => .create
  | .join _ => .join
  | .leave _ => .leave
  | .invite _ => .invite
  | .approve _ => .approve
  | .kick _ => .kick
  | .peerState _ => .peerState

/-- The network that is passed to `request_control`. -/
def networkId : ControlCall → Option NetworkId
  | .peerState q => some q.networkId
  | _ => none

/-- The checks of the encoder of the request. -/
def encode : ControlCall → Except Exn Unit
  | .manage q => requireManagementRequest q
  | .access q => requireAccessRequest q
  | .create q => requireCreateRequest q
  | .list => .ok ()
  | .join q | .leave q | .peerState q => requireSelectionRequest q
  | .invite q | .approve q | .kick q => requireMemberRequest q

/-- The check before anything else. -/
def requireSupport (n : NegotiatedCapabilities) : ControlCall → Except Exn Unit
  | .manage _ => check (n.supports .managedNetworks) (.runtimeError "Relay does not support managed networks")
  | .access q => check (n.supports (Channel.requiredCapability q.action))
      (.runtimeError "This relay does not support the requested access feature.")
  | _ => .ok ()

/-- What the function makes of the response; `none` where it decodes the payload of a frame of another type. -/
def reply (crypto : KeyCrypto) : ControlCall → ControlMessage → Option (Except Exn ControlReply)
  | .manage q, .managementResult r =>
    some (if r.action ≠ q.action ∨ r.networkId ≠ q.networkId then .error (.runtimeError "management response mismatch")
      else .ok (.management r))
  | .access q, .accessResult r =>
    some (if r.action ≠ q.action then .error (.runtimeError "access response action mismatch") else .ok (.access r))
  | .list, .listResult networks => some (.ok (.networks .success networks))
  | .list, .operationResult r => some (.ok (.networks r.code []))
  | .peerState _, .peerStateResult state =>
    some (QuicClient.verifyPeerKeys crypto state >>= fun _ => .ok (.peerState { code := .success, state := some state }))
  | .peerState _, .operationResult r => some (.ok (.peerState { code := r.code }))
  | .create _, .operationResult r | .join _, .operationResult r | .leave _, .operationResult r
  | .invite _, .operationResult r | .approve _, .operationResult r | .kick _, .operationResult r => some (.ok (.operation r))
  | _, _ => none

end ControlCall

/-! ## The client -/

structure PendingControl where
  requestType : MessageType
  operation : NetworkOperation
  networkId : Option NetworkId
  /-- Which call waits for it. -/
  call : ℕ
  deriving DecidableEq, Repr

/-- The part of `AttemptState` that control calls use. -/
structure ControlAttempt where
  /-- `authenticated`, with a stream to send on. -/
  ready : Bool := true
  pending : Map UInt32 PendingControl := ∅
  /-- What `request_control` returned or threw in each call that got as far as a request id. -/
  returned : List (ℕ × Except Exn ControlMessage) := []
  /-- How many calls got as far as a request id. -/
  calls : ℕ := 0

structure ControlClient where
  cache : QuicClient
  negotiated : NegotiatedCapabilities := {}
  candidateInbox : List CandidateExchange := []
  events : EventQueue := {}
  dataReceived : UInt64 := 0
  dataDropped : UInt64 := 0
  nextRequestId : UInt32 := 2
  attempt : ControlAttempt := {}

/-- How a call of `request_control` starts. -/
inductive ControlStart
  | threw (e : Exn)
  /-- No id is left: the loop goes on, under the mutex. -/
  | endless
  /-- The id under which the call waits, or under which its request could not be sent. -/
  | drew (id : UInt32)
  deriving DecidableEq, Repr

/-- Why every call that waits fails. -/
inductive CloseReason
  | stopped | fallbackDisconnected | transportDisconnected | closedByRelay | ended | streamEnded
  deriving DecidableEq, Repr

def CloseReason.text : CloseReason → String
  | .stopped => "network control connection stopped"
  | .fallbackDisconnected => "TLS TCP fallback disconnected"
  | .transportDisconnected => "relay transport disconnected"
  | .closedByRelay => "relay closed the connection"
  | .ended => "relay connection ended"
  | .streamEnded => "relay control stream ended"

/-- A frame from the relay, with its decoded payload. -/
inductive RelayMessage
  | control (message : ControlMessage)
  | packetForward (delivery : ForwardedNetworkPacket)
  deriving DecidableEq, Repr

structure RelayFrame where
  requestId : UInt32
  message : RelayMessage
  deriving DecidableEq, Repr

namespace ControlAttempt

/-- The call that waits under `id` is done. -/
def finish (id : UInt32) (p : PendingControl) (result : Except Exn ControlMessage) (a : ControlAttempt) : ControlAttempt :=
  { a with pending := a.pending.erase id, returned := a.returned ++ [(p.call, result)] }

/-- The next call waits under `id`, unless its request cannot be sent. -/
def start (call : ControlCall) (sends : Bool) (id : UInt32) (a : ControlAttempt) : ControlAttempt :=
  let p : PendingControl :=
    { requestType := call.type, operation := call.operation, networkId := call.networkId, call := a.calls }
  let a := { a with pending := a.pending.insert id p, calls := a.calls + 1 }
  if sends then a else a.finish id p (.error (.runtimeError "network control send failed"))

/-- `wait_for` gives up on the request `id`. -/
def timeOut (id : UInt32) (a : ControlAttempt) : ControlAttempt :=
  match a.pending.lookup id with
  | none => a
  | some p => a.finish id p (.error (.runtimeError "network control request timed out"))

def failPending (reason : CloseReason) (a : ControlAttempt) : ControlAttempt :=
  { a with
    pending := ∅
    returned := a.returned ++ a.pending.rows.map fun row => (row.2.call, .error (.runtimeError reason.text)) }

end ControlAttempt

namespace ControlClient
variable (crypto : KeyCrypto)

/-- Ids that the loop of `request_control` passes over. -/
def taken (c : ControlClient) (id : UInt32) : Bool := !controlId id || (c.attempt.pending.lookup id).isSome

/-- The checks before a request id is drawn. -/
def requireReady (call : ControlCall) (timeoutMs : ℤ) (c : ControlClient) : Except Exn Unit := do
  call.requireSupport c.negotiated
  call.encode
  check (0 < timeoutMs) (.invalidArgument "network control timeout must be positive")
  check (c.attempt.ready ∧ ¬ c.cache.stopRequested) (.runtimeError "network control is not authenticated")

/-- `request_control` up to the wait. The loop that draws the id ends within one round of the counter or never. -/
def requestControl (call : ControlCall) (timeoutMs : ℤ) (sends : Bool) (c : ControlClient) : ControlStart × ControlClient :=
  match c.requireReady call timeoutMs with
  | .error e => (.threw e, c)
  | .ok () =>
    match Serials.draw (· + 1) c.taken (2 ^ 32) c.nextRequestId with
    | none => (.endless, c)
    | some (id, nextRequestId) => (.drew id, { c with nextRequestId, attempt := c.attempt.start call sends id })

/-- What is done wherever `fail_pending` is called. -/
def close (reason : CloseReason) (c : ControlClient) : ControlClient :=
  { c with
    cache := { c.cache.clearPeerStates with
      authenticated := false, stopRequested := c.cache.stopRequested || decide (reason = .stopped) }
    attempt := { c.attempt.failPending reason with ready := false } }

/-! ## Frames from the relay -/

/-- A member function of the client. -/
abbrev Call (α : Type) := Action Exn ControlClient α

def onCache {α : Type} (x : ClientCall α) : Call α := fun c => ((x c.cache).1, { c with cache := (x c.cache).2 })

def onEvents {α : Type} (f : EventQueue → Except Exn α × EventQueue) : Call α := fun c =>
  ((f c.events).1, { c with events := (f c.events).2 })

/-- What becomes of a response: it breaks the connection, or the call that waits gets it or an error. -/
def acceptResponse (p : PendingControl) (m : ControlMessage) : Except Exn (Except Exn ControlMessage) :=
  let unexpected : Except Exn (Except Exn ControlMessage) := .error (.runtimeError "unexpected relay control response")
  match m with
  | .managementResult _ => if p.requestType = .networkManagementRequest then .ok (.ok m) else unexpected
  | .accessResult _ => if p.requestType = .userAccessRequest then .ok (.ok m) else unexpected
  | .operationResult r =>
    if p.requestType ≠ .userAccessRequest ∧ p.requestType ≠ .networkManagementRequest then do
      check (r.operation = p.operation) (.runtimeError "network control response operation mismatch")
      check (p.networkId.all fun n => r.networkId = n) (.runtimeError "network control response network mismatch")
      .ok (.ok m)
    else unexpected
  | .listResult _ => if p.operation = .list then .ok (.ok m) else unexpected
  | .capabilitySelection _ =>
    -- of the type of a list, and no list: its magic reads as a count that is too large
    if p.operation = .list then .error (.runtimeError "network list contains too many entries") else unexpected
  | .peerStateResult state =>
    if p.operation = .peerState then do
      QuicClient.verifyPeerKeys crypto state
      check (p.networkId.any fun n => state.networkId = n) (.runtimeError "network peer state response network mismatch")
      .ok (.ok m)
    else unexpected
  | .error => .ok (.error (.runtimeError "relay rejected network control request"))
  | _ => unexpected

/-- The end of `handle_control_frame`; a response nobody waits for is ignored. -/
def handleResponse (id : UInt32) (m : ControlMessage) : Call Unit := fun c =>
  match c.attempt.pending.lookup id with
  | none => (.ok (), c)
  | some p =>
    match acceptResponse crypto p m with
    | .error e => (.error e, c)
    | .ok result => (.ok (), { c with attempt := c.attempt.finish id p result })

/-- The answer to the capability offer. -/
def handleSelection (m : ControlMessage) : Call Unit :=
  match m with
  | .capabilitySelection selected =>
    if selected.wireVersion ≠ protocolVersion ∨ selected.features &&& ~~~supportedCapabilities ≠ 0 then
      Action.throw (.runtimeError "relay selected unsupported capabilities")
    else Action.modify fun c => { c with negotiated := selected }
  | .listResult _ => Action.throw (.invalidArgument "invalid capability selection")
  | .error | .operationResult _ => Action.modify fun c => { c with negotiated := {} }
  | _ => Action.throw (.runtimeError "unexpected capability negotiation response")

/-- The candidates are from a peer of the network to this session, in its epoch. -/
def takesCandidates (requestId : UInt32) (x : CandidateExchange) (c : ControlClient) : Bool :=
  requestId = 0 && c.negotiated.supports .peerCandidates && x.recipient = c.cache.identity.deviceId crypto &&
    (c.cache.ownSignedKey.any fun own => x.recipientSession = own.encryptionPublicKey) &&
    (c.cache.peerStates.lookup x.networkId).any fun n => x.keyEpoch = n.keyEpoch &&
      (n.peers.find? (·.deviceId = x.sender)).any fun p => p.signedKey.any fun key => key.encryptionPublicKey = x.senderSession

def handleCandidates (requestId : UInt32) (x : CandidateExchange) : Call Unit := Action.modify fun c =>
  if c.takesCandidates crypto requestId x ∧ c.candidateInbox.length < 64 then
    { c with candidateInbox := c.candidateInbox ++ [x] }
  else c

def handleForwardedPacket (sizes : EventSizes) (now : Time) (delivery : ForwardedNetworkPacket) : Call Unit :=
  Action.modify fun c =>
    if c.cache.acceptsDelivery now delivery then
      let r := c.events.pushPacket sizes delivery
      if r.1 then { c with events := r.2, dataReceived := c.dataReceived + 1 }
      else { c with events := r.2, dataDropped := c.dataDropped + 1 }
    else { c with dataDropped := c.dataDropped + 1 }

/-- `handle_control_frame`, its branches in their order. -/
def handleControlFrame (sizes : EventSizes) (inputs : ClientInputs) (now : Time) (encryptionKey : DeviceEncryptionKey)
    (f : RelayFrame) : Call Unit :=
  let zero (what : String) : Call Unit := Action.lift (check (f.requestId = 0) (.runtimeError what))
  match f.message with
  | .control .candidatesAck => pure ()
  | .control (.candidatesForward x) => handleCandidates crypto f.requestId x
  | .packetForward delivery =>
    if f.requestId = capabilityRequestId then Action.throw (.runtimeError "unexpected capability negotiation response")
    else do
      zero "forwarded packet has a request id"
      handleForwardedPacket sizes now delivery
  | .control m =>
    if f.requestId = capabilityRequestId then handleSelection m
    else match m with
      | .peerStateUpdate state => do
        zero "network peer update has a request id"
        onCache (QuicClient.applyPeerState crypto inputs encryptionKey state)
      | .peerStateRevoked revocation => do
        zero "network peer update has a request id"
        onCache (QuicClient.applyPeerRevocation revocation)
      | .keyEnvelope envelope => do
        zero "network key envelope has a request id"
        onCache (QuicClient.applyNetworkKeyEnvelope crypto encryptionKey envelope)
      | .event e => do
        zero "network event has a request id"
        onEvents (EventQueue.pushEvent sizes e)
      | m =>
        if f.requestId ≠ 0 then handleResponse crypto f.requestId m
        else match m with
          | .operationResult r =>
            Action.lift (check (r.operation = .keyPublish) (.runtimeError "unexpected unrequested network result"))
          | .error => pure ()
          | _ => Action.throw (.runtimeError "control response has a zero request id")

end ControlClient

end LanLink
