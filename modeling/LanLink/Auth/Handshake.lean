import LanLink.Auth.KeyEnvelopes
import LanLink.Protocol.Frames
/-!
# The authentication handshake

`ClientHandshake` and `ServerHandshake` (`auth/handshake.cpp`): hello,
challenge, proof, result. A call throws with whatever it has written by then;
the secrets of a handshake are zeroed when it ends. What a call draws at random
and which OpenSSL call fails in it is in its `AuthInputs`.
-/
open LanLink.Lib

namespace LanLink

abbrev TokenProof := BitVec 256

/-- The hash of the shared secret. -/
abbrev AuthToken := BitVec 256

/-- The OpenSSL functions of the handshake. -/
structure AuthCrypto extends KeyCrypto where
  /-- `EVP_Q_mac` with HMAC-SHA-256. -/
  hmac : AuthToken → Bytes → TokenProof

/-- What a call of a handshake gets from outside. -/
structure AuthInputs where
  /-- A reading of the steady clock. -/
  now : ℤ := 0
  /-- `random_nonce()`. -/
  nonce : Except Exn Nonce := .error (.runtimeError "secure random generation failed")
  /-- What `random_session_id()` returns before it throws. -/
  sessionIds : List SessionId := []
  /-- The exception of `DeviceIdentity::sign`, if it throws; the same for the others. -/
  signFault : Option Exn := none
  proofFault : Option Exn := none
  verifyFault : Option Exn := none
  digestFault : Option Exn := none

/-- The value, unless the computation throws. -/
def orThrow {α : Type} (fault : Option Exn) (value : α) : Except Exn α :=
  match fault with
  | some e => .error e
  | none => .ok value

/-! ## Payloads -/

structure ClientHelloPayload where
  publicKey : PublicKey := 0
  encryptionPublicKey : EncryptionPublicKey := 0
  clientNonce : Nonce := 0
  deriving DecidableEq, Repr

structure ServerChallengePayload where
  serverNonce : Nonce := 0
  deriving DecidableEq, Repr

structure ClientProofPayload where
  signature : Signature := 0
  tokenProof : TokenProof := 0
  deriving DecidableEq, Repr

structure AuthResultPayload where
  accepted : Bool := false
  sessionId : SessionId := 0
  deriving DecidableEq, Repr

/-- `read_array<size>(source, offset)`. -/
def readArrayAt (size : ℕ) (source : Bytes) (offset : ℕ) : BitVec (8 * size) :=
  ofBytes (8 * size) ((source.drop offset).take size)

def encodeClientHello (h : ClientHelloPayload) : Bytes :=
  arrayBytes h.publicKey ++ arrayBytes h.encryptionPublicKey ++ arrayBytes h.clientNonce

def decodeClientHello (payload : Bytes) : Except Exn ClientHelloPayload := do
  check (payload.length = 32 + 32 + 32) (.runtimeError "invalid client hello payload")
  .ok ⟨readArrayAt 32 payload 0, readArrayAt 32 payload 32, readArrayAt 32 payload (32 + 32)⟩

def encodeServerChallenge (c : ServerChallengePayload) : Bytes := arrayBytes c.serverNonce

def decodeServerChallenge (payload : Bytes) : Except Exn ServerChallengePayload := do
  check (payload.length = 32) (.runtimeError "invalid server challenge payload")
  .ok ⟨readArrayAt 32 payload 0⟩

def encodeClientProof (p : ClientProofPayload) : Bytes := arrayBytes p.signature ++ arrayBytes p.tokenProof

def decodeClientProof (payload : Bytes) : Except Exn ClientProofPayload := do
  check (payload.length = 64 + 32) (.runtimeError "invalid client proof payload")
  .ok ⟨readArrayAt 64 payload 0, readArrayAt 32 payload 64⟩

/-- A session id comes with an acceptance, and only with one. -/
def validResultState (r : AuthResultPayload) : Bool :=
  !((r.accepted && r.sessionId = 0) || (!r.accepted && r.sessionId ≠ 0))

def encodeAuthResult (r : AuthResultPayload) : Except Exn Bytes := do
  check (validResultState r) (.invalidArgument "authentication result has invalid session state")
  .ok ((if r.accepted then 1 else 0) :: arrayBytes r.sessionId)

def decodeAuthResult (payload : Bytes) : Except Exn AuthResultPayload := do
  check (payload.length = 1 + 32 ∧ (payload.head? = some 0 ∨ payload.head? = some 1))
    (.runtimeError "invalid authentication result payload")
  let result : AuthResultPayload := ⟨payload.head? = some 1, readArrayAt 32 payload 1⟩
  check (validResultState result) (.runtimeError "authentication result has invalid session state")
  .ok result

/-! ## Primitives -/

/-- Draw until the id is not zero. -/
def makeNonzeroSessionId : List SessionId → Except Exn SessionId
  | [] => .error (.runtimeError "secure random generation failed")
  | id :: ids => if id = 0 then makeNonzeroSessionId ids else .ok id

def requireFrame (frame : Frame) (type : MessageType) (requestId : BitVec 32) : Except Exn Unit :=
  check (¬ (frame.type ≠ type.code ∨ frame.requestId ≠ requestId)) (.runtimeError "unexpected authentication frame")

namespace AuthToken
variable (crypto : AuthCrypto) (inputs : AuthInputs)

def proof (token : AuthToken) (message : Bytes) : Except Exn TokenProof := orThrow inputs.proofFault (crypto.hmac token message)

def verify (token : AuthToken) (message : Bytes) (value : TokenProof) : Except Exn Bool := do
  let expected ← proof crypto inputs token message
  .ok (expected = value)

end AuthToken

/-! ## The client -/

inductive ClientState
  | ready | waitingChallenge | waitingResult | authenticated | rejected | closed
  deriving DecidableEq, Repr

structure ClientHandshake where
  identity : DeviceIdentity
  token : AuthToken
  encryptionKey : DeviceEncryptionKey
  signedDeviceKey : Option SignedDeviceKey := none
  clientNonce : Nonce := 0
  sessionIdValue : SessionId := 0
  requestId : BitVec 32 := 0
  state : ClientState := .ready

namespace ClientHandshake
variable (crypto : AuthCrypto) (inputs : AuthInputs)

/-- The constructor, with the key pair that `DeviceEncryptionKey::generate()` drew. -/
def make (identity : DeviceIdentity) (token : AuthToken) (encryptionKey : DeviceEncryptionKey) : ClientHandshake :=
  { identity, token, encryptionKey }

def begin (requestId : BitVec 32) : Action Exn ClientHandshake Frame := do
  let c ← Action.gets id
  if c.state ≠ .ready then Action.throw (.logicError "client authentication already started")
  else if requestId = 0 then Action.throw (.invalidArgument "authentication request id must be non-zero")
  else do
    Action.modify fun c => { c with requestId }
    let nonce ← Action.lift inputs.nonce
    Action.modify fun c => { c with clientNonce := nonce, state := .waitingChallenge }
    pure { type := MessageType.clientHello.code, requestId
           payload := encodeClientHello
            ⟨crypto.identityPublicKey c.identity, crypto.encryptionPublicKey c.encryptionKey, nonce⟩ }

/-- Sign the transcript and file the signed key; a throw drops it again. -/
def prove (serverNonce : Nonce) : Action Exn ClientHandshake Frame := do
  let c ← Action.gets id
  let publicKey := crypto.identityPublicKey c.identity
  let encryptionPublicKey := crypto.encryptionPublicKey c.encryptionKey
  let transcript := makeAuthTranscript publicKey encryptionPublicKey c.clientNonce serverNonce
  Action.tryCatch
    (do
      let signature ← Action.lift (orThrow inputs.signFault (crypto.sign c.identity transcript))
      let tokenProof ← Action.lift (AuthToken.proof crypto inputs c.token transcript)
      Action.modify fun c => { c with
        signedDeviceKey := some ⟨publicKey, encryptionPublicKey, c.clientNonce, serverNonce, signature⟩
        state := .waitingResult }
      pure { type := MessageType.clientAuth.code, requestId := c.requestId
             payload := encodeClientProof ⟨signature, tokenProof⟩ })
    (fun e => do
      Action.modify fun c => { c with signedDeviceKey := none }
      Action.throw e)

def handleChallenge (frame : Frame) : Action Exn ClientHandshake Frame := do
  let c ← Action.gets id
  if c.state ≠ .waitingChallenge then
    Action.throw (.logicError "client is not waiting for an authentication challenge")
  else do
    Action.lift (requireFrame frame .serverHello c.requestId)
    let challenge ← Action.lift (decodeServerChallenge frame.payload)
    prove crypto inputs challenge.serverNonce

def handleResult (frame : Frame) : Action Exn ClientHandshake Bool := do
  let c ← Action.gets id
  if c.state ≠ .waitingResult then Action.throw (.logicError "client is not waiting for an authentication result")
  else do
    Action.lift (requireFrame frame .authResult c.requestId)
    let result ← Action.lift (decodeAuthResult frame.payload)
    Action.modify fun c =>
      if result.accepted then { c with clientNonce := 0, sessionIdValue := result.sessionId, state := .authenticated }
      else { c with clientNonce := 0, sessionIdValue := 0, signedDeviceKey := none, state := .rejected }
    pure result.accepted

def close (c : ClientHandshake) : ClientHandshake :=
  { c with signedDeviceKey := none, clientNonce := 0, sessionIdValue := 0, requestId := 0, state := .closed }

def authenticated (c : ClientHandshake) : Bool := c.state = .authenticated

def sessionId (c : ClientHandshake) : Option SessionId := if c.authenticated then some c.sessionIdValue else none

def signedKey (c : ClientHandshake) : Option SignedDeviceKey := if c.authenticated then c.signedDeviceKey else none

end ClientHandshake

/-! ## The server -/

inductive ServerState
  | waitingHello | waitingProof | authenticated | rejected | timedOut | closed
  deriving DecidableEq, Repr

structure ServerHandshake where
  token : AuthToken
  connectionBinding : ℕ
  deadline : ℤ
  publicKey : PublicKey := 0
  encryptionPublicKey : EncryptionPublicKey := 0
  signedDeviceKeyValue : Option SignedDeviceKey := none
  clientNonce : Nonce := 0
  serverNonce : Nonce := 0
  deviceIdValue : DeviceId := 0
  sessionIdValue : SessionId := 0
  requestId : BitVec 32 := 0
  state : ServerState := .waitingHello

namespace ServerHandshake
variable (crypto : AuthCrypto) (inputs : AuthInputs)

/-- The constructor. -/
def make (token : AuthToken) (connectionBinding : ℕ) (deadline : ℤ) : Except Exn ServerHandshake := do
  check (connectionBinding ≠ 0) (.invalidArgument "authentication connection binding must be non-zero")
  .ok { token, connectionBinding, deadline }

def cleanse (s : ServerHandshake) : ServerHandshake :=
  { s with publicKey := 0, encryptionPublicKey := 0, clientNonce := 0, serverNonce := 0 }

def expire (now : ℤ) (s : ServerHandshake) : Bool × ServerHandshake :=
  if (s.state = .waitingHello ∨ s.state = .waitingProof) ∧ s.deadline ≤ now then
    (true, { s.cleanse with requestId := 0, state := .timedOut })
  else (s.state = .timedOut, s)

def requireActive (now : ℤ) : Action Exn ServerHandshake Unit := do
  let expired ← Action.update (expire now)
  if expired then Action.throw (.runtimeError "authentication deadline expired")
  else do
    let state ← Action.gets (·.state)
    if state = .closed then Action.throw (.logicError "authentication session is closed") else pure ()

def handleHello (frame : Frame) : Action Exn ServerHandshake Frame := do
  requireActive inputs.now
  let state ← Action.gets (·.state)
  if state ≠ .waitingHello ∨ frame.type ≠ MessageType.clientHello.code then
    Action.throw (.runtimeError "unexpected client authentication hello")
  else if frame.requestId = 0 then Action.throw (.runtimeError "authentication request id must be non-zero")
  else do
    let hello ← Action.lift (decodeClientHello frame.payload)
    Action.lift (check (hello.encryptionPublicKey ≠ 0) (.runtimeError "client encryption public key is empty"))
    Action.modify fun s => { s with
      publicKey := hello.publicKey, encryptionPublicKey := hello.encryptionPublicKey, clientNonce := hello.clientNonce }
    let serverNonce ← Action.lift inputs.nonce
    Action.modify fun s => { s with serverNonce, requestId := frame.requestId, state := .waitingProof }
    pure { type := MessageType.serverHello.code, requestId := frame.requestId
           payload := encodeServerChallenge ⟨serverNonce⟩ }

/-- File the device and its session. -/
def admitClient (signature : Signature) : Action Exn ServerHandshake Unit := do
  let s ← Action.gets id
  let deviceId ← Action.lift (orThrow inputs.digestFault (makeDeviceId crypto.toCrypto s.publicKey))
  Action.modify fun s => { s with deviceIdValue := deviceId }
  let sessionId ← Action.lift (makeNonzeroSessionId inputs.sessionIds)
  Action.modify fun s => { s with
    sessionIdValue := sessionId
    signedDeviceKeyValue := some ⟨s.publicKey, s.encryptionPublicKey, s.clientNonce, s.serverNonce, signature⟩
    state := .authenticated }

def refuse : Action Exn ServerHandshake Unit :=
  Action.modify fun s => { s with signedDeviceKeyValue := none, deviceIdValue := 0, sessionIdValue := 0, state := .rejected }

/-- The body of the `try` block of `handle_proof`. -/
def judge (transcript : Bytes) (proof : ClientProofPayload) : Action Exn ServerHandshake Frame := do
  let s ← Action.gets id
  let validSignature ← Action.lift
    (orThrow inputs.verifyFault (crypto.verifySignature s.publicKey transcript proof.signature))
  let validToken ← Action.lift (AuthToken.verify crypto inputs s.token transcript proof.tokenProof)
  let accepted := validSignature && validToken
  if accepted then admitClient crypto inputs proof.signature else refuse
  let s ← Action.gets id
  let payload ← Action.lift (encodeAuthResult ⟨accepted, s.sessionIdValue⟩)
  Action.modify cleanse
  pure { type := MessageType.authResult.code, requestId := s.requestId, payload }

def handleProof (frame : Frame) : Action Exn ServerHandshake Frame := do
  requireActive inputs.now
  let s ← Action.gets id
  if s.state ≠ .waitingProof then Action.throw (.runtimeError "unexpected client authentication proof")
  else do
    Action.lift (requireFrame frame .clientAuth s.requestId)
    let proof ← Action.lift (decodeClientProof frame.payload)
    let transcript := makeAuthTranscript s.publicKey s.encryptionPublicKey s.clientNonce s.serverNonce
    Action.tryCatch (judge crypto inputs transcript proof) fun e => do
      Action.modify fun s => { s.cleanse with deviceIdValue := 0, sessionIdValue := 0, state := .rejected }
      Action.throw e

def close (s : ServerHandshake) : ServerHandshake :=
  { s.cleanse with signedDeviceKeyValue := none, deviceIdValue := 0, sessionIdValue := 0, connectionBinding := 0
                   requestId := 0, state := .closed }

def authenticated (s : ServerHandshake) : Bool := s.state = .authenticated

def sessionId (s : ServerHandshake) : Except Exn SessionId := do
  check s.authenticated (.logicError "session is not authenticated")
  .ok s.sessionIdValue

def deviceId (s : ServerHandshake) : Except Exn DeviceId := do
  check s.authenticated (.logicError "device is not authenticated")
  .ok s.deviceIdValue

def signedDeviceKey (s : ServerHandshake) : Except Exn SignedDeviceKey :=
  match s.signedDeviceKeyValue with
  | some key => do
    check s.authenticated (.logicError "device encryption key is not authenticated")
    .ok key
  | none => .error (.logicError "device encryption key is not authenticated")

end ServerHandshake

end LanLink
