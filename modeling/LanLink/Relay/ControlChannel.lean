import LanLink.Protocol.Capabilities
import LanLink.Relay.Steps
/-!
# The control channel

`NetworkControlChannel` sits between authenticated connections and the network
service: it keeps what each session negotiated, turns request frames into calls
of the service, and results into response frames. A frame carries what the
decoder of its type makes of the payload; the encoders of responses appear with
the checks at which they throw.
-/
open LanLink.Lib

namespace LanLink

/-! ## Frames -/

/-- A request frame by its type, with its decoded payload. -/
inductive ControlRequest
  | management (payload : Except Exn ManagementRequest)
  | access (payload : Except Exn AccessRequest)
  | candidates (payload : Except Exn CandidateExchange)
  | create (payload : Except Exn NetworkCreateRequest)
  | list (payload : Except Exn Unit)
  /-- A list request whose payload starts as a capability payload. -/
  | capabilityOffer (payload : Except Exn CapabilityOffer)
  | join (payload : Except Exn NetworkSelectionRequest)
  | leave (payload : Except Exn NetworkSelectionRequest)
  | invite (payload : Except Exn NetworkMemberRequest)
  | approve (payload : Except Exn NetworkMemberRequest)
  | kick (payload : Except Exn NetworkMemberRequest)
  | peerState (payload : Except Exn NetworkSelectionRequest)
  | keyPublish (payload : Except Exn (List NetworkKeyEnvelope))
  /-- Any other type. -/
  | other

structure ControlFrame where
  requestId : UInt32
  request : ControlRequest

/-- A frame the channel sends, before its payload is encoded. -/
inductive ControlMessage
  | error
  | managementResult (result : ManagementResult)
  | accessResult (result : AccessResult)
  | candidatesAck
  | candidatesForward (exchange : CandidateExchange)
  | capabilitySelection (selection : NegotiatedCapabilities)
  | operationResult (result : NetworkOperationResult)
  | listResult (networks : List NetworkSummary)
  | peerStateResult (state : NetworkPeerState)
  | peerStateUpdate (state : NetworkPeerState)
  | peerStateRevoked (revocation : NetworkPeerRevocation)
  | event (event : NetworkEvent)
  | keyEnvelope (envelope : NetworkKeyEnvelope)
  deriving DecidableEq, Repr

/-- Encode the payload: the message, unless its encoder throws. -/
def ControlMessage.encode (m : ControlMessage) : Except Exn ControlMessage := do
  match m with
  | .error | .candidatesAck | .candidatesForward _ => .ok ()
  | .managementResult result => requireManagementResult result
  | .accessResult result => requireAccessResult result
  | .capabilitySelection selection => requireCapabilitySelection selection
  | .operationResult result => requireOperationResult result
  | .listResult networks => requireListResult networks
  | .peerStateResult state | .peerStateUpdate state => requirePeerState state
  | .peerStateRevoked revocation => requirePeerRevocation revocation
  | .event e => requireEvent e
  | .keyEnvelope envelope => requireKeyEnvelope envelope
  .ok m

structure RoutedControlFrame where
  recipientDeviceId : DeviceId
  message : ControlMessage
  deriving DecidableEq, Repr

structure ControlDispatch where
  requestId : UInt32
  response : ControlMessage
  events : List RoutedControlFrame := []
  deriving DecidableEq, Repr

/-! ## State -/

structure CapabilitySession where
  session : SessionId := 0
  negotiated : NegotiatedCapabilities := {}
  generations : Map (NetworkId × DeviceId) UInt64 := ∅

/-- The channel with the service it belongs to. -/
structure Channel where
  service : Service
  sessions : Map DeviceId CapabilitySession := ∅

/-- What a call of the channel takes from outside. -/
structure ChannelInputs extends Inputs where
  /-- `time_source_()` of the channel. -/
  timeMs : ℤ := 0

namespace Channel
variable (crypto : Crypto) (inputs : ChannelInputs)

/-- A member function of the channel. -/
abbrev Call (α : Type) := Action Exn Channel α

/-- A call of the service. -/
def onService {α : Type} (x : LanLink.Call α) : Call α := fun c =>
  ((x c.service).1, { c with service := (x c.service).2 })

def nowMs : Except Exn ℤ :=
  if inputs.timeMs < 0 then .error (.runtimeError "control channel time source returned a negative value")
  else .ok inputs.timeMs

def capabilities (c : Channel) (actor : DeviceId) : NegotiatedCapabilities :=
  match c.sessions.lookup actor with
  | none => {}
  | some session => session.negotiated

/-! ## Responses -/

def encodeEvents (events : List RoutedNetworkEvent) : Except Exn (List RoutedControlFrame) :=
  events.mapM fun routed => do
    let message ← (ControlMessage.event routed.event).encode
    .ok { recipientDeviceId := routed.recipientDeviceId, message }

/-- A peer state under a policy is sent to clients that understand policies
only; others are told it is gone. -/
def encodePeerChanges (c : Channel) (changes : List RoutedPeerStateChange) : Except Exn (List RoutedControlFrame) :=
  changes.mapM fun change => do
    let message ← match change.state with
      | some state =>
        if state.policy.isNone ∨ (c.capabilities change.recipientDeviceId).supports .managedNetworks then
          (ControlMessage.peerStateUpdate state).encode
        else (ControlMessage.peerStateRevoked ⟨state.networkId, state.revision⟩).encode
      | none => (ControlMessage.peerStateRevoked change.revocation).encode
    .ok { recipientDeviceId := change.recipientDeviceId, message }

def operationResponse (requestId : UInt32) (outcome : NetworkOperationOutcome) : Call ControlDispatch :=
  Action.query fun c => do
    let response ← (ControlMessage.operationResult outcome.result).encode
    let events ← encodeEvents outcome.events
    let changes ← c.encodePeerChanges outcome.peerChanges
    .ok { requestId, response, events := events ++ changes }

def peerStateResponse (requestId : UInt32) (n : NetworkId) (outcome : NetworkPeerStateOutcome) (managedCapable : Bool) :
    Except Exn ControlDispatch := do
  let denied := (outcome.state.bind (·.policy)).isSome ∧ ¬ managedCapable
  let code := if denied then .permissionDenied else outcome.code
  match (if denied then none else outcome.state) with
  | some state =>
    if code = .success then do
      let response ← (ControlMessage.peerStateResult state).encode
      .ok { requestId, response }
    else do
      let response ← (ControlMessage.operationResult ⟨.peerState, code, n⟩).encode
      .ok { requestId, response }
  | none => do
    let response ← (ControlMessage.operationResult ⟨.peerState, code, n⟩).encode
    .ok { requestId, response }

def listResponse (requestId : UInt32) (outcome : NetworkListOutcome) : Except Exn ControlDispatch :=
  if outcome.code = .success then do
    let response ← (ControlMessage.listResult outcome.networks).encode
    .ok { requestId, response }
  else do
    let response ← (ControlMessage.operationResult ⟨.list, outcome.code, 0⟩).encode
    .ok { requestId, response }

def keyPublishResponse (outcome : NetworkKeyPublishOutcome) : Except Exn ControlDispatch := do
  let response ← (ControlMessage.operationResult ⟨.keyPublish, outcome.code, outcome.networkId⟩).encode
  if outcome.code = .success then do
    let events ← outcome.envelopes.mapM fun envelope => do
      let message ← (ControlMessage.keyEnvelope envelope).encode
      .ok { recipientDeviceId := envelope.recipientDeviceId, message }
    .ok { requestId := 0, response, events }
  else .ok { requestId := 0, response }

/-! ## Sessions -/

/-- `note_authenticated` of a device without a session key. -/
def noteDevice (actor : DeviceId) : Call Unit := do
  let now ← Action.lift (nowMs inputs)
  onService (Service.recordAuthenticatedDevice actor now)
  Action.modify fun c => { c with sessions := c.sessions.insert actor {} }

def noteAuthenticated (actor : DeviceId) (sessionId : SessionId) (signedKey : SignedDeviceKey) :
    Call (List RoutedControlFrame) := do
  Action.modify fun c => { c with sessions := c.sessions.insert actor { session := sessionId } }
  let _ ← onService (Service.setManagementCapable actor false)
  let now ← Action.lift (nowMs inputs)
  let changes ← onService (Service.publishDeviceKey crypto actor sessionId signedKey now)
  Action.query fun c => c.encodePeerChanges changes

def noteDisconnected (actor : DeviceId) (sessionId : SessionId) : Call (List RoutedControlFrame) := do
  Action.modify fun c =>
    if (c.sessions.lookup actor).any fun s => s.session = sessionId then { c with sessions := c.sessions.erase actor }
    else c
  let changes ← onService (Service.removeDeviceKey actor sessionId)
  Action.query fun c => c.encodePeerChanges changes

/-! ## Requests -/

/-- The capability an access request needs. -/
def requiredCapability : AccessAction → Capability
  | .inviteIssue | .inviteRedeem | .inviteRevoke => .invitationCodes
  | .passwordSet | .passwordJoin | .networkCreateProtected => .passwordNetworks
  | .accountCreate | .accountStatus | .enrollmentIssue | .deviceEnroll | .deviceRevoke => .userAccounts

section
variable (actor : DeviceId) (requestId : UInt32)

def handleManagement (payload : Except Exn ManagementRequest) : Call ControlDispatch := do
  let negotiated ← Action.gets fun c => c.capabilities actor
  if ¬ negotiated.supports .managedNetworks then pure { requestId, response := .error }
  else do
    let q ← Action.lift payload
    let now ← Action.lift (nowMs inputs)
    let out ← onService (Service.manageNetwork inputs.toInputs actor q now)
    Action.query fun c => do
      let response ← (ControlMessage.managementResult out.result).encode
      let events ← c.encodePeerChanges out.changes
      .ok { requestId, response, events }

def handleAccess (payload : Except Exn AccessRequest) : Call ControlDispatch := do
  let q ← Action.lift payload
  let negotiated ← Action.gets fun c => c.capabilities actor
  if ¬ negotiated.supports (requiredCapability q.action) then pure { requestId, response := .error }
  else do
    let now ← Action.lift (nowMs inputs)
    let out ← onService (Service.accessRequest crypto inputs.toInputs actor q now)
    Action.query fun c => do
      let changes ← c.encodePeerChanges out.changes
      let notifications ← encodeEvents out.events
      let response ← (ControlMessage.accessResult out.result).encode
      .ok { requestId, response, events := changes ++ notifications }

def exchangesCandidates (n : NegotiatedCapabilities) : Bool :=
  n.supports .peerCandidates && n.supports .candidateGenerations

/-- A generation is forwarded once, in increasing order, and at most 128 peers
are counted. -/
def forwardCandidates (x : CandidateExchange) (c : Channel) : ControlDispatch × Channel :=
  match c.sessions.lookup actor, c.sessions.lookup x.recipient with
  | some a, some b =>
    if ¬ exchangesCandidates a.negotiated ∨ ¬ exchangesCandidates b.negotiated then ({ requestId, response := .error }, c)
    else
      let key := (x.networkId, x.recipient)
      if (key ∉ a.generations ∧ 128 ≤ a.generations.size) ∨ (a.generations.lookup key).any (fun g => x.generation ≤ g) then
        ({ requestId, response := .error }, c)
      else
        ({ requestId, response := .candidatesAck,
           events := [{ recipientDeviceId := x.recipient, message := .candidatesForward x }] },
         { c with sessions := c.sessions.insert actor { a with generations := a.generations.insert key x.generation } })
  | _, _ => ({ requestId, response := .error }, c)

def handleCandidates (payload : Except Exn CandidateExchange) : Call ControlDispatch := do
  let x ← Action.lift payload
  let authorized ← onService (Action.query fun s => s.authorizePeerExchange actor x)
  if ¬ authorized then pure { requestId, response := .error }
  else Action.update (forwardCandidates actor requestId x)

def handleOffer (payload : Except Exn CapabilityOffer) : Call ControlDispatch := do
  let offer ← Action.lift payload
  let negotiated ← Action.lift (negotiateCapabilities {} offer)
  let session ← Action.gets fun c => c.sessions.lookup actor
  match session with
  | none => pure { requestId, response := .error }
  | some session => do
    Action.modify fun c => { c with sessions := c.sessions.insert actor { session with negotiated } }
    let changes ← onService (Service.setManagementCapable actor (negotiated.supports .managedNetworks))
    Action.query fun c => do
      let response ← (ControlMessage.capabilitySelection negotiated).encode
      let events ← c.encodePeerChanges changes
      .ok { requestId, response, events }

/-- The cases that report the outcome of a network operation. -/
def handleOperation {q : Type} (payload : Except Exn q) (operation : q → ℤ → LanLink.Call NetworkOperationOutcome) :
    Call ControlDispatch := do
  let request ← Action.lift payload
  let now ← Action.lift (nowMs inputs)
  let outcome ← onService (operation request now)
  operationResponse requestId outcome

def handleList (payload : Except Exn Unit) : Call ControlDispatch := do
  Action.lift payload
  let now ← Action.lift (nowMs inputs)
  let outcome ← onService (Service.listNetworks actor now)
  Action.lift (listResponse requestId outcome)

def handlePeerState (payload : Except Exn NetworkSelectionRequest) : Call ControlDispatch := do
  let selection ← Action.lift payload
  let now ← Action.lift (nowMs inputs)
  let outcome ← onService (Service.peerState actor selection now)
  let negotiated ← Action.gets fun c => c.capabilities actor
  Action.lift (peerStateResponse requestId selection.networkId outcome (negotiated.supports .managedNetworks))

def handleKeyPublish (payload : Except Exn (List NetworkKeyEnvelope)) : Call ControlDispatch := do
  let envelopes ← Action.lift payload
  let outcome ← onService (Service.publishNetworkKeys crypto actor envelopes)
  Action.lift (keyPublishResponse outcome)

/-- The body of `handle_authenticated` for a device that is allowed. -/
def dispatch : ControlRequest → Call ControlDispatch
  | .management payload => handleManagement inputs actor requestId payload
  | .access payload => handleAccess crypto inputs actor requestId payload
  | .candidates payload => handleCandidates actor requestId payload
  | .capabilityOffer payload => handleOffer actor requestId payload
  | .create payload => handleOperation inputs requestId payload (Service.createNetwork inputs.toInputs actor)
  | .list payload => handleList inputs actor requestId payload
  | .join payload => handleOperation inputs requestId payload (Service.joinNetwork inputs.toInputs actor)
  | .leave payload => handleOperation inputs requestId payload (Service.leaveNetwork inputs.toInputs actor)
  | .invite payload => handleOperation inputs requestId payload (Service.inviteMember inputs.toInputs actor)
  | .approve payload => handleOperation inputs requestId payload (Service.approveMember inputs.toInputs actor)
  | .kick payload => handleOperation inputs requestId payload (Service.kickMember inputs.toInputs actor)
  | .peerState payload => handlePeerState inputs actor requestId payload
  | .keyPublish payload => handleKeyPublish crypto actor payload
  | .other => Action.throw (.runtimeError "unexpected frame on authenticated control channel")

end

/-- The checks before the request is looked at. -/
def requireFrame (actor : DeviceId) (f : ControlFrame) : Except Exn Unit := do
  check (actor ≠ 0) (.invalidArgument "control request requires an authenticated device")
  match f.request with
  | .keyPublish _ => check (f.requestId = 0) (.invalidArgument "network key publication must be asynchronous")
  | .candidates _ => .ok ()
  | .other => do
    check (f.requestId ≠ 0) (.invalidArgument "control request id must be non-zero")
    .error (.runtimeError "unexpected frame on authenticated control channel")
  | _ => check (f.requestId ≠ 0) (.invalidArgument "control request id must be non-zero")

/-- The catch clauses take every exception the service throws. -/
def handleAuthenticated (actor : DeviceId) (f : ControlFrame) : Call ControlDispatch := do
  Action.lift (requireFrame actor f)
  let admitted ← onService (Service.admitControl actor inputs.now)
  if ¬ admitted then pure { requestId := f.requestId, response := .error }
  else
    Action.tryCatch
      (do
        let allowed ← Action.gets fun c => c.service.deviceAllowed actor
        if ¬ allowed then pure { requestId := f.requestId, response := .error }
        else dispatch crypto inputs actor f.requestId f.request)
      fun _ => pure { requestId := f.requestId, response := .error }

end Channel

/-! ## Runs -/

/-- A call of the channel, or a restart of the process. -/
inductive ChannelEvent
  | noteDevice (actor : DeviceId) (inputs : ChannelInputs)
  | noteAuthenticated (actor : DeviceId) (sessionId : SessionId) (signedKey : SignedDeviceKey) (inputs : ChannelInputs)
  | noteDisconnected (actor : DeviceId) (sessionId : SessionId)
  | handle (actor : DeviceId) (frame : ControlFrame) (inputs : ChannelInputs)
  | restart

def Channel.step (crypto : Crypto) (c : Channel) : ChannelEvent → Channel
  | .noteDevice actor inputs => (noteDevice inputs actor c).2
  | .noteAuthenticated actor sessionId signedKey inputs =>
    (noteAuthenticated crypto inputs actor sessionId signedKey c).2
  | .noteDisconnected actor sessionId => (noteDisconnected actor sessionId c).2
  | .handle actor frame inputs => (handleAuthenticated crypto inputs actor frame c).2
  | .restart => { service := .fresh c.service.store }

end LanLink
