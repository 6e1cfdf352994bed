import LanLink.Auth.Handshake
import LanLink.Lib.Actions
import LanLink.Network.RoutedNetwork
import LanLink.P2P.Bindings
import LanLink.Protocol.PacketCodec
import LanLink.Protocol.StreamDecoder
/-!
# Direct connections

`DirectQuic` (`p2p/direct_quic.cpp`): connections between two devices of a network
under a binding. Both sides say hello with a nonce and prove the binding with a
signature over both nonces before packets pass. The callbacks of the QUIC library
are events here; whether its calls succeed and whether something fits in the send
budget are inputs of them.
-/
open LanLink.Lib LanLink.Lib.Action LanLink.Lib.Reader

namespace LanLink.P2P
open LanLink.Session (PeerBinding)

/-! ## The lease -/

/-- `peer_binding_authorized`, once the network of the binding is found. -/
def memberAuthorized (b : PeerBinding) (key : SignedDeviceKey) (localIpv4 peerIpv4 : UInt32) (n : ActiveNetworkPacketState) : Bool :=
  (n.peers.policy.all fun policy => policyAllows policy b.localDevice b.peerDevice) &&
    n.key.epoch = b.keyEpoch && n.peers.keyEpoch = b.keyEpoch && n.peers.ownAddress = localIpv4 &&
    n.peers.peers.any fun p => p.deviceId = b.peerDevice && p.ipv4Address = peerIpv4 && p.signedKey = some key

def peerBindingAuthorized (crypto : Crypto) (b : PeerBinding) (key : SignedDeviceKey) (localIpv4 peerIpv4 : UInt32)
    (s : NetworkSnapshot) : Bool :=
  (s.identity.any fun i => i.deviceId = b.localDevice && b.localGeneration ≠ 0 && b.peerGeneration ≠ 0 &&
    i.signedKey.encryptionPublicKey = b.localSession && verifySignedDeviceKey crypto i.signedKey b.localDevice &&
    key.encryptionPublicKey = b.peerSession && verifySignedDeviceKey crypto key b.peerDevice) &&
  (s.networks.find? fun n => n.peers.networkId = b.networkId).any (memberAuthorized b key localIpv4 peerIpv4)

/-! ## State -/

structure DirectQuicOptions where
  binding : PeerBinding
  peerKey : SignedDeviceKey
  localIpv4 : UInt32 := 0
  peerIpv4 : UInt32 := 0
  deriving DecidableEq, Repr

/-- `Impl::Connection`. -/
structure DirectConnection where
  outgoing : Bool
  nonce : Nonce
  stream : Bool := false
  hello : Bool := false
  proof : Bool := false
  authorized : Bool := false
  closed : Bool := false
  peerNonce : Option Nonce := none
  datagramSize : UInt16 := 0
  decoder : FrameStreamDecoder := ⟨[], 0, FrameStreamDecoder.inBounds_nil⟩
  deriving DecidableEq, Repr

structure DirectCounters where
  sent : UInt64 := 0
  received : UInt64 := 0
  dropped : UInt64 := 0
  sentBytes : UInt64 := 0
  receivedBytes : UInt64 := 0
  deriving DecidableEq, Repr

/-- What is written on a connection or handed over, under the number of the
connection. That the peer's proof was accepted is noted too. -/
inductive DirectOutput
  | hello (i : ℕ) (frame : Frame)
  | proof (i : ℕ) (sender receiver : Nonce) (frame : Frame)
  | accepted (i : ℕ) (sender receiver : Nonce)
  | packet (i : ℕ) (p : EncryptedNetworkPacket) (datagram : Bool)
  | received (i : ℕ) (delivery : ForwardedNetworkPacket)
  deriving DecidableEq, Repr

structure DirectQuic where
  identity : DeviceIdentity
  options : DirectQuicOptions
  connections : List DirectConnection := []
  started : Bool := false
  stopping : Bool := false
  leaseValid : Bool := false
  /-- `synchronize` has found the lease revoked and has yet to stop everything. -/
  revoking : Bool := false
  counters : DirectCounters := {}
  deriving DecidableEq, Repr

inductive PacketSendResult
  | accepted | unavailable | backpressure | invalidPacket
  deriving DecidableEq, Repr

/-- A connection, as a callback works on it. -/
structure DirectScene where
  connection : DirectConnection
  counters : DirectCounters
  /-- How often the control rate was asked. -/
  asked : ℕ := 0
  outputs : List DirectOutput := []

/-- What a callback finds out about its surroundings. -/
structure DirectInputs where
  /-- The stream of an outgoing connection is opened, and started. -/
  opens : Bool := true
  starts : Bool := true
  helloSent : Bool := true
  proofSent : Bool := true
  signFault : Option Exn := none
  /-- The answers of the control rate. -/
  allowed : ℕ → Bool := fun _ => true
  /-- What a decoder that throws leaves behind. -/
  torn : FrameStreamDecoder := ⟨[], 0, FrameStreamDecoder.inBounds_nil⟩

/-- The number of a connection. -/
abbrev DirectId := ℕ

namespace DirectQuic
variable (crypto : KeyCrypto)

/-- The constructor. -/
def make (identity : DeviceIdentity) (o : DirectQuicOptions) : Except Exn DirectQuic := do
  check (¬ (identity.deviceId crypto ≠ o.binding.localDevice ∨ ¬ verifySignedDeviceKey crypto.toCrypto o.peerKey o.binding.peerDevice ∨
      o.peerKey.encryptionPublicKey ≠ o.binding.peerSession ∨ o.binding.keyEpoch = 0 ∨ o.binding.localGeneration = 0 ∨
      o.binding.peerGeneration = 0 ∨ o.localIpv4 = 0 ∨ o.peerIpv4 = 0 ∨ o.localIpv4 = o.peerIpv4))
    (.invalidArgument "invalid direct peer authorization")
  .ok { identity, options := o }

/-- The first authorized connection of the direction both sides prefer, else the last of the other. -/
def selectFrom (preferred : Bool) (fallback : Option DirectId) (i : DirectId) : List DirectConnection → Option DirectId
  | [] => fallback
  | c :: connections =>
    if c.authorized ∧ ¬ c.closed then
      if c.outgoing = preferred then some i else selectFrom preferred (some i) (i + 1) connections
    else selectFrom preferred fallback (i + 1) connections

def selected (o : DirectQuic) : Option DirectId :=
  selectFrom (o.options.binding.localDevice < o.options.binding.peerDevice) none 0 o.connections

def authenticated (o : DirectQuic) : Bool := !o.stopping && o.leaseValid && o.selected.isSome

/-! ## Frames -/

section
variable (o : DirectQuic) (inputs : DirectInputs) (i : DirectId)

def emit (out : DirectOutput) : Action Exn DirectScene Unit := modify fun s => { s with outputs := s.outputs ++ [out] }

def drop : Action Exn DirectScene Unit := modify fun s => { s with counters := { s.counters with dropped := s.counters.dropped + 1 } }

def setConnection (f : DirectConnection → DirectConnection) : Action Exn DirectScene Unit :=
  modify fun s => { s with connection := f s.connection }

def helloFrame (nonce : Nonce) : Frame :=
  { type := MessageType.clientHello.code, payload := encodeBinding o.options.binding ++ arrayBytes nonce }

def proofFrame (signature : Signature) : Frame :=
  { type := MessageType.clientAuth.code, payload := arrayBytes signature }

def hello : Action Exn DirectScene Unit := do
  let c ← gets fun s => s.connection
  if c.hello ∨ ¬ c.stream then pure ()
  else do
    setConnection fun c => { c with hello := true }
    if inputs.helloSent then emit (.hello i (o.helloFrame c.nonce))
    else throw (.runtimeError "peer hello backpressure")

def proof : Action Exn DirectScene Unit := do
  let c ← gets fun s => s.connection
  match c.peerNonce with
  | none => pure ()
  | some peerNonce =>
    if c.proof then pure ()
    else do
      setConnection fun c => { c with proof := true }
      let signature ← lift (signPeerBinding crypto o.identity o.options.binding c.nonce peerNonce)
      let signature ← lift (orThrow inputs.signFault signature)
      if inputs.proofSent then emit (.proof i c.nonce peerNonce (proofFrame signature))
      else throw (.runtimeError "peer proof backpressure")

def data (bytes : Bytes) : Action Exn DirectScene Unit := do
  let c ← gets fun s => s.connection
  if ¬ c.authorized ∨ o.stopping ∨ ¬ o.leaseValid then drop
  else do
    let p ← lift (decodeEncryptedNetworkPacket bytes)
    if p.networkId ≠ o.options.binding.networkId ∨ p.keyEpoch ≠ o.options.binding.keyEpoch ∨ p.destinationIpv4 ≠ o.options.localIpv4 then drop
    else do
      modify fun s =>
        { s with
          counters := { s.counters with
            received := s.counters.received + 1, receivedBytes := s.counters.receivedBytes + UInt64.ofNat bytes.length } }
      emit (.received i { senderDeviceId := o.options.binding.peerDevice, packet := p })

/-- A hello of the peer: the binding, and its nonce. -/
def readHello (expected : PeerBinding) : PolicyReader Nonce := do
  let bound ← PolicyReader.bytes 168
  let binding ← BinaryReader.validate (decodeBinding bound)
  Reader.require (binding = expected) (.runtimeError "peer membership mismatch")
  PolicyReader.array 256

/-- The signature in a proof. -/
def readProof : PolicyReader Signature := do
  let signature ← PolicyReader.array 512
  BinaryReader.finish
  pure signature

/-- `rate.allow()`. -/
def askRate : Action Exn DirectScene Bool := update fun s => (inputs.allowed s.asked, { s with asked := s.asked + 1 })

def handleHello (payload : Bytes) : Action Exn DirectScene Unit := do
  let c ← gets fun s => s.connection
  if c.peerNonce.isSome then throw (.runtimeError "duplicate peer hello")
  else do
    let read ← lift (readHello o.options.binding.reversed payload)
    -- the nonce is kept even if something follows it
    setConnection fun c => { c with peerNonce := some read.1 }
    lift (check (read.2 = []) (.invalidArgument "trailing protocol payload"))
    hello o inputs i
    proof crypto o inputs i

def handleProof (payload : Bytes) : Action Exn DirectScene Unit := do
  let signature ← lift (readProof.parse payload)
  let c ← gets fun s => s.connection
  match c.peerNonce with
  | none => throw (.runtimeError "direct peer authentication failed")
  | some peerNonce =>
    if c.authorized ∨ ¬ c.proof ∨ ¬ verifyPeerBinding crypto.toCrypto o.options.peerKey o.options.binding.reversed peerNonce c.nonce signature then
      throw (.runtimeError "direct peer authentication failed")
    else do
      setConnection fun c => { c with authorized := true }
      emit (.accepted i peerNonce c.nonce)

def frame (f : Frame) : Action Exn DirectScene Unit := do
  if ¬ o.leaseValid ∨ o.stopping then throw (.runtimeError "direct membership revoked")
  else if f.requestId ≠ 0 then throw (.runtimeError "invalid direct request id")
  else if f.type = MessageType.networkPacketSend.code then data o i f.payload
  else do
    let allowed ← askRate inputs
    if ¬ allowed then throw (.runtimeError "direct control rate exceeded")
    else if f.type = MessageType.clientHello.code then handleHello crypto o inputs i f.payload
    else if f.type = MessageType.clientAuth.code then handleProof crypto o i f.payload
    else throw (.runtimeError "unexpected direct control frame")

def frames : List Frame → Action Exn DirectScene Unit
  | [] => pure ()
  | f :: rest => do
    frame crypto o inputs i f
    frames rest

/-- The buffers of a receive event, one after the other. -/
def receiveBuffers : List Bytes → Action Exn DirectScene Unit
  | [] => pure ()
  | bytes :: buffers => do
    let c ← gets fun s => s.connection
    match c.decoder.push bytes with
    | .error e => do
      setConnection fun c => { c with decoder := inputs.torn }
      throw e
    | .ok decoded => do
      setConnection fun c => { c with decoder := decoded.1 }
      frames crypto o inputs i decoded.2
      if 128 * 1024 < decoded.1.bufferedSize then throw (.runtimeError "direct stream frame limit")
      else receiveBuffers buffers

/-! ## Callbacks -/

/-- `catch(...)`: the connection is not authorized any more, and is shut down. -/
def guarded (x : Action Exn DirectScene Unit) : Action Exn DirectScene Unit :=
  tryCatch x fun _ => do
    drop
    setConnection fun c => { c with authorized := false }

/-- `QUIC_CONNECTION_EVENT_CONNECTED`. -/
def onConnected : Action Exn DirectScene Unit := do
  let c ← gets fun s => s.connection
  if c.outgoing ∧ ¬ o.stopping then
    if ¬ inputs.opens then throw (.runtimeError "direct stream open failed")
    else do
      setConnection fun c => { c with stream := true }
      if ¬ inputs.starts then throw (.runtimeError "direct stream start failed") else hello o inputs i
  else pure ()

/-- `QUIC_CONNECTION_EVENT_PEER_STREAM_STARTED`. -/
def onPeerStream : Action Exn DirectScene Unit := do
  let c ← gets fun s => s.connection
  if o.stopping ∨ c.closed then pure ()
  else if c.outgoing ∨ c.stream then throw (.runtimeError "extra direct stream")
  else setConnection fun c => { c with stream := true }

/-- `QUIC_STREAM_EVENT_RECEIVE`. -/
def onReceive (buffers : List Bytes) : Action Exn DirectScene Unit :=
  if o.stopping then pure ()
  else if 128 * 1024 < (buffers.map List.length).sum then throw (.runtimeError "direct stream receive limit")
  else receiveBuffers crypto o inputs i buffers

inductive DirectCallback
  | connected (inputs : DirectInputs)
  | peerStream
  | datagramState (size : UInt16)
  | datagram (bytes : Bytes)
  | shutdown
  | shutdownComplete
  | receive (buffers : List Bytes) (inputs : DirectInputs)
  | peerAborted

def callback : DirectCallback → Action Exn DirectScene Unit
  | .connected inputs => guarded (onConnected o inputs i)
  | .peerStream => guarded (onPeerStream o)
  | .datagramState size => setConnection fun c => { c with datagramSize := size }
  | .datagram bytes => guarded (data o i bytes)
  | .shutdown => setConnection fun c => { c with authorized := false }
  | .shutdownComplete => setConnection fun c => { c with closed := true, authorized := false }
  | .receive buffers inputs => guarded (onReceive crypto o inputs i buffers)
  | .peerAborted => setConnection fun c => { c with authorized := false }

end

/-! ## Events -/

inductive DirectEvent
  /-- The part of `synchronize` under the lock. -/
  | synchronize (snapshot : NetworkSnapshot)
  | start (fails : Bool)
  | connect (endpoint : Endpoint) (nonce : Nonce) (opens starts : Bool)
  /-- A connection of the peer comes in at the listener. -/
  | accept (nonce : Nonce) (configured : Bool)
  | callback (i : DirectId) (call : DirectCallback)
  | send (p : EncryptedNetworkPacket) (reserved : Bool)
  /-- `stop` up to the calls of the library. -/
  | stop
  /-- `stop` has closed all connections. -/
  | stopped

def synchronize (o : DirectQuic) (snapshot : NetworkSnapshot) : DirectQuic :=
  let valid := peerBindingAuthorized crypto.toCrypto o.options.binding o.options.peerKey o.options.localIpv4 o.options.peerIpv4 snapshot
  { o with
    leaseValid := valid, revoking := !valid
    connections := if valid then o.connections else o.connections.map fun c => { c with authorized := false } }

def stop (o : DirectQuic) : DirectQuic :=
  if o.stopping then o
  else { o with stopping := true, started := false, connections := o.connections.map fun c => { c with authorized := false } }

def start (o : DirectQuic) (fails : Bool) : DirectQuic :=
  if o.started ∨ ¬ o.leaseValid ∨ o.stopping then o else if fails then o.stop else { o with started := true }

def connect (o : DirectQuic) (endpoint : Endpoint) (nonce : Nonce) (opens starts : Bool) : DirectQuic :=
  if o.options.binding.peerDevice < o.options.binding.localDevice ∨ ¬ o.started ∨ o.stopping ∨ ¬ usableEndpoint endpoint true ∨
      8 ≤ o.connections.length ∨ o.selected.isSome ∨ ¬ opens then o
  else { o with connections := o.connections ++ [{ outgoing := true, nonce, closed := !starts }] }

def accept (o : DirectQuic) (nonce : Nonce) (configured : Bool) : DirectQuic :=
  if o.options.binding.localDevice ≤ o.options.binding.peerDevice ∨ o.stopping ∨ 8 ≤ o.connections.length then o
  else { o with connections := o.connections ++ [{ outgoing := false, nonce, closed := !configured }] }

def call (o : DirectQuic) (i : DirectId) (x : DirectCallback) : List DirectOutput × DirectQuic :=
  match o.connections[i]? with
  | none => ([], o)
  | some c =>
    let s := (callback crypto o i x { connection := c, counters := o.counters }).2
    (s.outputs, { o with connections := o.connections.set i s.connection, counters := s.counters })

/-- `output` on the selected connection: the packet goes out as a datagram if it fits in one. -/
def sendOn (o : DirectQuic) (i : DirectId) (p : EncryptedNetworkPacket) (bytes : Bytes) (reserved : Bool) :
    Except Exn PacketSendResult × List DirectOutput × DirectQuic :=
  if ¬ reserved then (.ok .backpressure, [], { o with counters := { o.counters with dropped := o.counters.dropped + 1 } })
  else
    let size := (o.connections[i]?.map (·.datagramSize)).getD 0
    (.ok .accepted, [.packet i p (size ≠ 0 && bytes.length ≤ size.toNat)],
      { o with counters := { o.counters with sent := o.counters.sent + 1, sentBytes := o.counters.sentBytes + UInt64.ofNat bytes.length } })

def send (o : DirectQuic) (p : EncryptedNetworkPacket) (reserved : Bool) : Except Exn PacketSendResult × List DirectOutput × DirectQuic :=
  match o.selected with
  | none => (.ok .unavailable, [], o)
  | some i =>
    if o.stopping ∨ ¬ o.leaseValid then (.ok .unavailable, [], o)
    else if p.networkId ≠ o.options.binding.networkId ∨ p.keyEpoch ≠ o.options.binding.keyEpoch ∨
        p.destinationIpv4 ≠ o.options.peerIpv4 then (.ok .invalidPacket, [], o)
    else
      match encodeEncryptedNetworkPacket p with
      | .error e => (.error e, [], o)
      | .ok bytes => o.sendOn i p bytes reserved

def work (o : DirectQuic) : DirectEvent → List DirectOutput × DirectQuic
  -- one call of `synchronize` at a time: the next comes after everything was stopped
  | .synchronize snapshot => ([], if o.revoking then o else o.synchronize crypto snapshot)
  | .start fails => ([], o.start fails)
  | .connect endpoint nonce opens starts => ([], o.connect endpoint nonce opens starts)
  | .accept nonce configured => ([], o.accept nonce configured)
  | .callback i call => o.call crypto i call
  | .send p reserved => (o.send p reserved).2
  | .stop => ([], { o.stop with revoking := false })
  | .stopped => ([], if o.stopping then { o with connections := [] } else o)

end DirectQuic
end LanLink.P2P
