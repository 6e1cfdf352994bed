import LanLink.Auth.HandshakeRuns
import LanLink.Relay.Permanence
import LanLink.Transport.SendBudget
/-!
# The relay server

`QuicServer` of a relay without an upstream: connections over QUIC and over
TLS, their handshakes, the list of active control streams, and the control
channel behind it. The callbacks of one connection run one after another; those
of different connections interleave between two sections under a mutex. A step
here is one such section.
-/
open LanLink.Lib LanLink.Lib.Action

namespace LanLink

/-- A connection. A handle is used again after it was closed, and a number is not. -/
abbrev LinkId := ℕ

inductive LinkKind
  | quic | tcp
  deriving DecidableEq, Repr

/-- A frame that is routed to a device. -/
inductive RoutedFrame
  | control (r : RoutedControlFrame)
  | packet (r : RoutedEncryptedPacket)
  deriving DecidableEq, Repr

def RoutedFrame.recipient : RoutedFrame → DeviceId
  | .control r => r.recipientDeviceId
  | .packet r => r.recipientDeviceId

/-- Where the thread of a connection is. -/
inductive LinkPhase
  /-- Between two callbacks, or in the loop of the channel. -/
  | serving
  /-- After the answer to a proof that was accepted. -/
  | registering
  | noting
  /-- Before each batch is sent under the mutex of the streams. -/
  | routing (batches : List (List RoutedFrame))
  /-- The streams of the connection are off the list, or the loop of the channel has ended. -/
  | closed
  /-- Before `note_disconnected`. -/
  | leaving (deviceId : DeviceId) (sessionId : SessionId)
  | left (events : List RoutedFrame)
  deriving DecidableEq, Repr

/-- `ConnectionContext` with its `StreamContext`, or `TcpContext`. -/
structure RelayLink where
  kind : LinkKind
  handshake : ServerHandshake
  phase : LinkPhase := .serving
  /-- `control_stream_started`. -/
  streamStarted : Bool := false
  /-- The stream of the connection is there. -/
  streamOpen : Bool := false

structure ActiveControlStream where
  deviceId : DeviceId
  link : LinkId
  tcp : Bool
  deriving DecidableEq, Repr

/-- A frame from a client, with its decoded payload where it is for the control channel. -/
inductive ClientFrame
  | hello (frame : Frame)
  | proof (frame : Frame)
  | packet (requestId : UInt32) (payload : Except Exn EncryptedNetworkPacket)
  | control (f : ControlFrame)

/-- What the handling of a frame takes from outside: whether the connection takes what is sent on it, and whether the
limiter of the connection lets the request in. -/
structure FrameInputs where
  auth : AuthInputs := {}
  channel : ChannelInputs := {}
  sends : Bool := true
  allowed : Bool := true

/-- A device, as a handshake has authenticated it. -/
structure LinkIdentity where
  deviceId : DeviceId
  key : ActiveKey
  deriving DecidableEq, Repr

structure RelayServer where
  token : AuthToken
  admissions : SendBudget
  /-- The connections that hold a place. -/
  admitted : List (LinkId × SendBudget.Ticket) := []
  nextLink : LinkId := 0
  links : Map LinkId RelayLink := ∅
  active : List ActiveControlStream := []
  channel : Channel := { service := .fresh {} }
  /-- Which connection has authenticated whom. -/
  proven : List (LinkId × LinkIdentity) := []
  /-- For whom the channel has been asked, and over which connection. -/
  acted : List (LinkId × DeviceId) := []
  /-- What was routed, and to which connection. -/
  sent : List (LinkId × RoutedFrame) := []

inductive RelayServerEvent
  /-- A connection comes in. -/
  | accept
  /-- Its context is made. -/
  | opened (id : LinkId) (kind : LinkKind) (binding : ℕ) (deadline : ℤ)
  /-- It fails before that. -/
  | dropped (id : LinkId)
  | streamStarted (id : LinkId)
  | expire (id : LinkId) (now : ℤ)
  | frame (id : LinkId) (frame : ClientFrame) (inputs : FrameInputs)
  | datagram (id : LinkId) (payload : Except Exn EncryptedNetworkPacket) (inputs : ChannelInputs)
  | register (id : LinkId)
  | note (id : LinkId) (inputs : ChannelInputs)
  /-- A batch is routed over the connections in `reached`, and over the others it fails. -/
  | route (id : LinkId) (reached : List LinkId)
  | streamClosed (id : LinkId)
  /-- `SHUTDOWN_COMPLETE`, or the end of the loop. -/
  | close (id : LinkId)
  | leave (id : LinkId)
  | disconnect (id : LinkId)
  | finish (id : LinkId) (reached : List LinkId)

namespace RelayLink

/-- A callback that throws shuts the connection down, which goes on later; the loop of a channel ends. -/
def failed (link : RelayLink) : RelayLink :=
  { link with phase := match link.kind with
      | .quic => .serving
      | .tcp => .closed }

/-- The device of an authenticated handshake, with its session and key. -/
def identity (link : RelayLink) : Option LinkIdentity :=
  if link.handshake.authenticated then
    link.handshake.signedDeviceKeyValue.map fun key => ⟨link.handshake.deviceIdValue, ⟨link.handshake.sessionIdValue, key⟩⟩
  else none

end RelayLink

namespace RelayServer
variable (crypto : AuthCrypto)

def setLink (id : LinkId) (link : RelayLink) (s : RelayServer) : RelayServer := { s with links := s.links.insert id link }

/-- The ticket of the connection goes with it. -/
def removeLink (id : LinkId) (s : RelayServer) : RelayServer :=
  { s with
    links := s.links.erase id
    admissions := match s.admitted.find? (·.1 = id) with
      | some x => s.admissions.release x.2
      | none => s.admissions
    admitted := s.admitted.eraseP (·.1 = id) }

/-! ## The active streams -/

/-- The loop of `register_control_stream`: entries over TLS make way, and one over QUIC ends it. -/
def makeWay (deviceId : DeviceId) : List ActiveControlStream → Bool × List ActiveControlStream
  | [] => (true, [])
  | e :: rest =>
    if e.deviceId ≠ deviceId then
      let r := makeWay deviceId rest
      (r.1, e :: r.2)
    else if e.tcp then makeWay deviceId rest
    else (false, e :: rest)

def registerControlStream (id : LinkId) (deviceId : DeviceId) (s : RelayServer) : Bool × RelayServer :=
  let r := makeWay deviceId s.active
  if r.1 then (true, { s with active := r.2 ++ [⟨deviceId, id, false⟩] }) else (false, { s with active := r.2 })

def registerTcp (id : LinkId) (deviceId : DeviceId) (s : RelayServer) : Bool × RelayServer :=
  if s.active.any fun e => e.deviceId = deviceId then (false, s)
  else (true, { s with active := s.active ++ [⟨deviceId, id, true⟩] })

def eraseActive (id : LinkId) (s : RelayServer) : RelayServer := { s with active := s.active.filter (·.link ≠ id) }

/-- `route_control_events` and `route_encrypted_packet`: a control frame goes to every entry of its device, a packet to
the first. -/
def deliveries (active : List ActiveControlStream) (frame : RoutedFrame) : List (LinkId × RoutedFrame) :=
  match frame with
  | .control r => (active.filter (·.deviceId = r.recipientDeviceId)).map fun e => (e.link, frame)
  | .packet r => ((active.find? (·.deviceId = r.recipientDeviceId)).map fun e => (e.link, frame)).toList

def route (frames : List RoutedFrame) (reached : List LinkId) (s : RelayServer) : RelayServer :=
  { s with sent := s.sent ++ (frames.flatMap (deliveries s.active)).filter (·.1 ∈ reached) }

/-! ## Frames -/

/-- A frame before the connection has authenticated a device. -/
def handleAuthFrame (id : LinkId) (link : RelayLink) (frame : ClientFrame) (inputs : FrameInputs) (s : RelayServer) :
    RelayServer :=
  match frame with
  | .hello f =>
    let r := ServerHandshake.handleHello inputs.auth f link.handshake
    let link := { link with handshake := r.2 }
    s.setLink id (if r.1.isOk ∧ inputs.sends then link else link.failed)
  | .proof f =>
    let r := ServerHandshake.handleProof crypto inputs.auth f link.handshake
    let link := { link with handshake := r.2 }
    let s := { s with proven := s.proven ++ (link.identity.map fun i => (id, i)).toList }
    s.setLink id (
      if r.1.isOk ∧ inputs.sends then if link.handshake.authenticated then { link with phase := .registering } else link
      else link.failed)
  | _ => s.setLink id link.failed

/-- `route_encrypted_packet` of the channel. -/
def routePacket (actor : DeviceId) (payload : Except Exn EncryptedNetworkPacket) (inputs : ChannelInputs) :
    Channel.Call (List RoutedEncryptedPacket) := do
  let p ← Action.lift payload
  Channel.onService (Service.routeEncryptedPacket inputs.toInputs actor p)

/-- The packets are routed one by one. -/
def batches (packets : List RoutedEncryptedPacket) : LinkPhase := .routing (packets.map fun p => [.packet p])

/-- `handle_control_frame` of the server. A frame of the handshake is not one of the control channel's. -/
def handleControlFrame (id : LinkId) (link : RelayLink) (frame : ClientFrame) (inputs : FrameInputs) (s : RelayServer) :
    RelayServer :=
  let actor := link.handshake.deviceIdValue
  let request (f : ControlFrame) : RelayServer :=
    if inputs.allowed then
      let r := Channel.handleAuthenticated crypto.toCrypto inputs.channel actor f s.channel
      let s := { s with channel := r.2, acted := s.acted ++ [(id, actor)] }
      match r.1 with
      | .ok d => s.setLink id (
          if inputs.sends then { link with phase := .routing [d.events.map .control] } else link.failed)
      | .error _ => s.setLink id link.failed
    else s.setLink id link.failed
  match frame with
  | .packet requestId payload =>
    if requestId ≠ 0 then s.setLink id link.failed
    else
      let r := routePacket actor payload inputs.channel s.channel
      let s := { s with channel := r.2, acted := s.acted ++ [(id, actor)] }
      match r.1 with
      | .ok packets => s.setLink id { link with phase := batches packets }
      | .error _ => s.setLink id link.failed
  | .hello f | .proof f => request ⟨⟨f.requestId⟩, .other⟩
  | .control f => request f

/-! ## Steps -/

/-- What the thread of a connection does next, where it is there and not done. -/
def stepLink (id : LinkId) (link : RelayLink) (s : RelayServer) : RelayServerEvent → RelayServer
  | .streamStarted _ =>
    if link.kind = .quic ∧ link.phase = .serving ∧ ¬ link.streamStarted then
      s.setLink id { link with streamStarted := true, streamOpen := true }
    else s
  | .expire _ now =>
    if link.phase = .serving then
      let r := ServerHandshake.expire now link.handshake
      let link := { link with handshake := r.2 }
      s.setLink id (if r.1 then link.failed else link)
    else s
  | .frame _ frame inputs =>
    if link.phase = .serving ∧ (link.kind = .quic → link.streamOpen) then
      if link.handshake.authenticated then s.handleControlFrame crypto id link frame inputs
      else s.handleAuthFrame crypto id link frame inputs
    else s
  | .datagram _ payload inputs =>
    if link.kind = .quic ∧ link.phase = .serving ∧ link.handshake.authenticated then
      let r := routePacket link.handshake.deviceIdValue payload inputs s.channel
      let s := { s with channel := r.2, acted := s.acted ++ [(id, link.handshake.deviceIdValue)] }
      match r.1 with
      | .ok packets => s.setLink id { link with phase := batches packets }
      | .error _ => s
    else s
  | .register _ =>
    if link.phase = .registering then
      let r := match link.kind with
        | .quic => s.registerControlStream id link.handshake.deviceIdValue
        | .tcp => s.registerTcp id link.handshake.deviceIdValue
      r.2.setLink id (if r.1 then { link with phase := .noting } else link.failed)
    else s
  | .note _ inputs =>
    match link.phase, link.identity with
    | .noting, some i =>
      let r := Channel.noteAuthenticated crypto.toCrypto inputs i.deviceId i.key.sessionId i.key.signedKey s.channel
      let s := { s with channel := r.2 }
      match r.1 with
      | .ok events => s.setLink id { link with phase := .routing [events.map .control] }
      | .error _ => s.setLink id link.failed
    | _, _ => s
  | .route _ reached =>
    match link.phase with
    | .routing [] => s.setLink id { link with phase := .serving }
    | .routing (frames :: rest) => (s.route frames reached).setLink id { link with phase := .routing rest }
    | _ => s
  | .streamClosed _ =>
    if link.kind = .quic ∧ link.phase = .serving then (s.eraseActive id).setLink id { link with streamOpen := false } else s
  | .close _ =>
    if link.phase = .serving then
      match link.kind with
      | .quic => (s.eraseActive id).setLink id { link with phase := .closed }
      | .tcp => s.setLink id { link with phase := .closed }
    else s
  | .leave _ =>
    if link.phase = .closed then
      if link.handshake.authenticated then
        let phase := .leaving link.handshake.deviceIdValue link.handshake.sessionIdValue
        match link.kind with
        | .quic => s.setLink id { link with handshake := link.handshake.close, phase }
        | .tcp => (s.eraseActive id).setLink id { link with phase }
      else s.removeLink id
    else s
  | .disconnect _ =>
    match link.phase with
    | .leaving deviceId sessionId =>
      let r := Channel.noteDisconnected deviceId sessionId s.channel
      let s := { s with channel := r.2 }
      match r.1 with
      | .ok events => s.setLink id { link with phase := .left (events.map .control) }
      | .error _ => s.setLink id { link with phase := .left [] }
    | _ => s
  | .finish _ reached =>
    match link.phase with
    | .left events => (s.route events reached).removeLink id
    | _ => s
  | _ => s

def step (s : RelayServer) (e : RelayServerEvent) : RelayServer :=
  let onLink (id : LinkId) : RelayServer :=
    match s.links.lookup id with
    | some link => s.stepLink crypto id link e
    | none => s
  match e with
  | .accept =>
    match s.admissions.reserve 1 true with
    | (some ticket, admissions) => { s with admissions, admitted := s.admitted ++ [(s.nextLink, ticket)], nextLink := s.nextLink + 1 }
    | (none, admissions) => { s with admissions }
  | .opened id kind binding deadline =>
    if id ∈ s.admitted.map (·.1) ∧ id ∉ s.links then
      match ServerHandshake.make s.token binding deadline with
      | .ok handshake => s.setLink id { kind, handshake }
      | .error _ => s.removeLink id
    else s
  | .dropped id => if id ∈ s.links then s else s.removeLink id
  | .streamStarted id | .expire id _ | .frame id _ _ | .datagram id _ _ | .register id | .note id _ | .route id _
  | .streamClosed id | .close id | .leave id | .disconnect id | .finish id _ => onLink id

/-- A relay that has just started. -/
def start (token : AuthToken) (maxConnections : UInt64) : RelayServer :=
  { token, admissions := { limits := ⟨maxConnections, maxConnections, 0, 0⟩ } }

/-- The relay after `k` events. -/
def run (token : AuthToken) (maxConnections : UInt64) (events : ℕ → RelayServerEvent) (k : ℕ) : RelayServer :=
  states (step crypto) (start token maxConnections) events k

end RelayServer

end LanLink
