import LanLink.Protocol.Messages
/-!
# Payloads of control messages

The codecs of `network_messages.cpp`. An encoder makes its checks and writes the
fields; a decoder reads them with a `Reader` of its own, makes the same checks in
its own words and accepts no trailing bytes.
-/
open LanLink.Lib

namespace LanLink

/-! ## Enumerations on the wire -/

def NetworkOperation.code : NetworkOperation → ℕ
  | .create => 1
  | .list => 2
  | .join => 3
  | .leave => 4
  | .invite => 5
  | .approve => 6
  | .kick => 7
  | .peerState => 8
  | .keyPublish => 9

/-- `is_known_network_operation`: the operation a byte stands for. -/
def operationOfCode : ℕ → Option NetworkOperation
  | 1 => some .create
  | 2 => some .list
  | 3 => some .join
  | 4 => some .leave
  | 5 => some .invite
  | 6 => some .approve
  | 7 => some .kick
  | 8 => some .peerState
  | 9 => some .keyPublish
  | _ => none

def NetworkResultCode.code : NetworkResultCode → ℕ
  | .success => 0
  | .pendingApproval => 1
  | .invalidRequest => 2
  | .notFound => 3
  | .alreadyExists => 4
  | .notMember => 5
  | .permissionDenied => 6
  | .inviteRequired => 7
  | .targetNotFound => 8
  | .limitReached => 9
  | .conflict => 10
  | .internalError => 11

/-- `is_known_network_result_code`. -/
def resultOfCode : ℕ → Option NetworkResultCode
  | 0 => some .success
  | 1 => some .pendingApproval
  | 2 => some .invalidRequest
  | 3 => some .notFound
  | 4 => some .alreadyExists
  | 5 => some .notMember
  | 6 => some .permissionDenied
  | 7 => some .inviteRequired
  | 8 => some .targetNotFound
  | 9 => some .limitReached
  | 10 => some .conflict
  | 11 => some .internalError
  | _ => none

def NetworkEventKind.code : NetworkEventKind → ℕ
  | .invited => 1
  | .joinRequested => 2
  | .memberJoined => 3
  | .memberLeft => 4
  | .memberKicked => 5

/-- `is_known_network_event_kind`. -/
def eventKindOfCode : ℕ → Option NetworkEventKind
  | 1 => some .invited
  | 2 => some .joinRequested
  | 3 => some .memberJoined
  | 4 => some .memberLeft
  | 5 => some .memberKicked
  | _ => none

/-! ## The reader -/

/-- The `Reader` of `network_messages.cpp`. -/
abbrev PayloadReader := Reader Exn

namespace PayloadReader

def truncated : Exn := .runtimeError "network payload is truncated"

def readInteger (n : ℕ) : PayloadReader ℕ := Reader.word truncated n

def readArray (w : ℕ) : PayloadReader (BitVec w) := do
  let bs ← Reader.bytes truncated (w / 8)
  pure (BitVec.ofNat w (beNat bs))

def readString (size : ℕ) : PayloadReader Text := Reader.bytes truncated size

def requireFinished : PayloadReader Unit := Reader.finish (.runtimeError "network payload contains trailing bytes")

/-- A string after its length. -/
def name : PayloadReader Text := do
  let size ← readInteger 2
  readString size

/-- The value of an enumeration, or `e`. -/
def known {α : Type} (value : Option α) (e : Exn) : PayloadReader α := fun input =>
  match value with
  | some a => .ok (a, input)
  | none => .error e

end PayloadReader

open PayloadReader

def zeroNetworkId : Exn := .runtimeError "network payload contains a zero network id"

def zeroDeviceId : Exn := .runtimeError "network payload contains a zero device id"

/-- A decoder that first looks at the size of the payload. -/
def decodeSized {α : Type} (size : ℕ) (e : Exn) (r : PayloadReader α) (payload : Bytes) : Except Exn α := do
  check (payload.length = size) e
  r.parse payload

/-! ## Requests -/

def nameBytes (t : Text) : Bytes := beBytes 2 t.length ++ t

def encodeNetworkCreateRequest (q : NetworkCreateRequest) : Except Exn Bytes := do
  requireCreateRequest q
  .ok (nameBytes q.name)

def readCreateRequest : PayloadReader NetworkCreateRequest := do
  let name ← name
  requireFinished
  Reader.require (validNetworkName name) (.runtimeError "network create request contains an invalid name")
  pure { name }

def decodeNetworkCreateRequest (payload : Bytes) : Except Exn NetworkCreateRequest := readCreateRequest.parse payload

def networkSelectionSize : ℕ := 16

def encodeNetworkSelectionRequest (q : NetworkSelectionRequest) : Except Exn Bytes := do
  requireSelectionRequest q
  .ok (arrayBytes q.networkId)

def readSelectionRequest : PayloadReader NetworkSelectionRequest := do
  let networkId ← readArray 128
  requireFinished
  Reader.require (networkId ≠ 0) zeroNetworkId
  pure { networkId }

def decodeNetworkSelectionRequest : Bytes → Except Exn NetworkSelectionRequest :=
  decodeSized networkSelectionSize (.runtimeError "network selection request has an invalid size") readSelectionRequest

def networkMemberSize : ℕ := 16 + 32

def encodeNetworkMemberRequest (q : NetworkMemberRequest) : Except Exn Bytes := do
  requireMemberRequest q
  .ok (arrayBytes q.networkId ++ arrayBytes q.deviceId)

def readMemberRequest : PayloadReader NetworkMemberRequest := do
  let networkId ← readArray 128
  let deviceId ← readArray 256
  requireFinished
  Reader.require (networkId ≠ 0) zeroNetworkId
  Reader.require (deviceId ≠ 0) zeroDeviceId
  pure { networkId, deviceId }

def decodeNetworkMemberRequest : Bytes → Except Exn NetworkMemberRequest :=
  decodeSized networkMemberSize (.runtimeError "network member request has an invalid size") readMemberRequest

/-! ## Results and events -/

def networkOperationResultSize : ℕ := 1 + 2 + 16

def encodeNetworkOperationResult (r : NetworkOperationResult) : Except Exn Bytes := do
  requireOperationResult r
  .ok (beBytes 1 r.operation.code ++ beBytes 2 r.code.code ++ arrayBytes r.networkId)

/-- `validate_result_for_decode`, after the enumerations. -/
def validateResultForDecode (r : NetworkOperationResult) : PayloadReader Unit := do
  Reader.require (r.code = .pendingApproval → r.operation = .join)
    (.runtimeError "network operation result has invalid pending state")
  if r.operation = .list then
    Reader.require (r.networkId = 0) (.runtimeError "network list result contains an unexpected id")
  else if r.operation = .create ∧ r.code ≠ .success then
    Reader.require (r.networkId = 0) (.runtimeError "failed network create result contains an id")
  else Reader.require (r.networkId ≠ 0) zeroNetworkId

def unknownResultValue : Exn := .runtimeError "network operation result contains an unknown value"

def readOperationResult : PayloadReader NetworkOperationResult := do
  let operation ← readInteger 1
  let code ← readInteger 2
  let networkId ← readArray 128
  requireFinished
  let operation ← known (operationOfCode operation) unknownResultValue
  let code ← known (resultOfCode code) unknownResultValue
  let result : NetworkOperationResult := { operation, code, networkId }
  validateResultForDecode result
  pure result

def decodeNetworkOperationResult : Bytes → Except Exn NetworkOperationResult :=
  decodeSized networkOperationResultSize (.runtimeError "network operation result has an invalid size") readOperationResult

/-- The widths of the fields: `created_at_ms` is an `int64_t`, `member_count` a `uint32_t`. -/
def NetworkSummary.Typed (s : NetworkSummary) : Prop := s.createdAtMs < 2 ^ 63 ∧ s.memberCount < 2 ^ 32

def roleCode (owner : Bool) : ℕ := if owner then 1 else 0

/-- Whether a role byte means the owner. -/
def ownerOfCode : ℕ → Option Bool
  | 0 => some false
  | 1 => some true
  | _ => none

def summaryBytes (s : NetworkSummary) : Bytes :=
  arrayBytes s.networkId ++ arrayBytes s.ownerDeviceId ++ beBytes 1 (roleCode s.owner) ++ beBytes 8 s.createdAtMs.toNat ++
    beBytes 4 s.memberCount ++ nameBytes s.name

def encodeNetworkListResult (networks : List NetworkSummary) : Except Exn Bytes := do
  requireListResult networks
  .ok (beBytes 2 networks.length ++ networks.flatMap summaryBytes)

def readSummary : PayloadReader NetworkSummary := do
  let networkId ← readArray 128
  let ownerDeviceId ← readArray 256
  let role ← readInteger 1
  let timestamp ← readInteger 8
  Reader.require (timestamp ≤ 2 ^ 63 - 1) (.runtimeError "network creation timestamp is out of range")
  let memberCount ← readInteger 4
  let name ← name
  -- `validate_summary_for_decode`
  Reader.require (networkId ≠ 0) zeroNetworkId
  Reader.require (ownerDeviceId ≠ 0) zeroDeviceId
  let owner ← known (ownerOfCode role) (.runtimeError "network summary contains an unknown role")
  Reader.require (memberCount ≠ 0 ∧ validNetworkName name) (.runtimeError "network summary contains invalid fields")
  pure { networkId, ownerDeviceId, owner, createdAtMs := timestamp, memberCount, name }

/-- The loop of `decode_network_list_result`, given the ids before. -/
def readSummaries (ids : List NetworkId) : ℕ → PayloadReader (List NetworkSummary)
  | 0 => pure []
  | count + 1 => do
    let summary ← readSummary
    Reader.require (¬ ids.contains summary.networkId) (.runtimeError "network list contains a duplicate id")
    let summaries ← readSummaries (summary.networkId :: ids) count
    pure (summary :: summaries)

def readListResult : PayloadReader (List NetworkSummary) := do
  let count ← readInteger 2
  Reader.require (count ≤ maxNetworkListEntries) (.runtimeError "network list contains too many entries")
  let networks ← readSummaries [] count
  requireFinished
  pure networks

def decodeNetworkListResult (payload : Bytes) : Except Exn (List NetworkSummary) := readListResult.parse payload

def networkEventSize : ℕ := 1 + 16 + 32

def encodeNetworkEvent (e : NetworkEvent) : Except Exn Bytes := do
  requireEvent e
  .ok (beBytes 1 e.kind.code ++ arrayBytes e.networkId ++ arrayBytes e.deviceId)

def readEvent : PayloadReader NetworkEvent := do
  let kind ← readInteger 1
  let networkId ← readArray 128
  let deviceId ← readArray 256
  requireFinished
  let kind ← known (eventKindOfCode kind) (.runtimeError "network event contains an unknown kind")
  Reader.require (networkId ≠ 0) zeroNetworkId
  Reader.require (deviceId ≠ 0) zeroDeviceId
  pure { kind, networkId, deviceId }

def decodeNetworkEvent : Bytes → Except Exn NetworkEvent :=
  decodeSized networkEventSize (.runtimeError "network event has an invalid size") readEvent

/-! ## Peer states -/

def signedKeyBytes (k : SignedDeviceKey) : Bytes :=
  arrayBytes k.identityPublicKey ++ arrayBytes k.encryptionPublicKey ++ arrayBytes k.clientNonce ++
    arrayBytes k.serverNonce ++ arrayBytes k.signature

def optionalKeyBytes : Option SignedDeviceKey → Bytes
  | some k => beBytes 1 1 ++ signedKeyBytes k
  | none => beBytes 1 0

def peerBytes (p : NetworkPeer) : Bytes :=
  arrayBytes p.deviceId ++ beBytes 4 p.ipv4Address.toNat ++ optionalKeyBytes p.signedKey

/-- A peer state without its policy. -/
def peerStateBytes (s : NetworkPeerState) : Bytes :=
  arrayBytes s.networkId ++ beBytes 8 s.revision.toNat ++ beBytes 4 s.subnetAddress.toNat ++
    beBytes 1 s.prefixLength.toNat ++ beBytes 4 s.ownAddress.toNat ++ beBytes 2 s.peers.length ++
    s.peers.flatMap peerBytes ++ arrayBytes s.ownerDeviceId ++ beBytes 8 s.keyEpoch.toNat

/-- The optional policy at the end has no length of its own. -/
def encodeNetworkPeerState (s : NetworkPeerState) : Except Exn Bytes := do
  check (validPeerState s) (.invalidArgument "network peer state contains invalid addresses or peers")
  match s.policy with
  | none => .ok (peerStateBytes s)
  | some policy => do
    let extension ← encodeNetworkPolicy policy
    .ok (peerStateBytes s ++ extension)

def readSignedKey : PayloadReader SignedDeviceKey := do
  let identityPublicKey ← readArray 256
  let encryptionPublicKey ← readArray 256
  let clientNonce ← readArray 256
  let serverNonce ← readArray 256
  let signature ← readArray 512
  pure { identityPublicKey, encryptionPublicKey, clientNonce, serverNonce, signature }

def readOptionalKey : PayloadReader (Option SignedDeviceKey) := do
  let hasKey ← readInteger 1
  Reader.require (hasKey ≤ 1) (.runtimeError "network peer key flag is invalid")
  if hasKey = 1 then do
    let key ← readSignedKey
    pure (some key)
  else pure none

def readPeer : PayloadReader NetworkPeer := do
  let deviceId ← readArray 256
  let ipv4Address ← readInteger 4
  let signedKey ← readOptionalKey
  pure { deviceId, ipv4Address := UInt32.ofNat ipv4Address, signedKey }

/-- The fixed part; what is left of the payload is the policy. -/
def readPeerState : PayloadReader NetworkPeerState := do
  let networkId ← readArray 128
  let revision ← readInteger 8
  let subnetAddress ← readInteger 4
  let prefixLength ← readInteger 1
  let ownAddress ← readInteger 4
  let count ← readInteger 2
  Reader.require (count ≤ maxNetworkPeerEntries) (.runtimeError "network peer state contains too many peers")
  let peers ← Reader.many readPeer count
  let ownerDeviceId ← readArray 256
  let keyEpoch ← readInteger 8
  pure { networkId, revision := UInt64.ofNat revision, subnetAddress := UInt32.ofNat subnetAddress,
         prefixLength := UInt8.ofNat prefixLength, ownAddress := UInt32.ofNat ownAddress, peers, ownerDeviceId,
         keyEpoch := UInt64.ofNat keyEpoch }

/-- Bytes that are left are a policy. -/
def withPolicy (state : NetworkPeerState) (remaining : Bytes) : Except Exn NetworkPeerState :=
  if remaining ≠ [] then do
    let policy ← decodeNetworkPolicy remaining
    .ok { state with policy := some policy }
  else .ok state

def decodeNetworkPeerState (payload : Bytes) : Except Exn NetworkPeerState := do
  let (state, remaining) ← readPeerState payload
  let state ← withPolicy state remaining
  check (validPeerState state) (.runtimeError "network peer state contains invalid addresses or peers")
  .ok state

def encodeNetworkPeerRevocation (r : NetworkPeerRevocation) : Except Exn Bytes := do
  requirePeerRevocation r
  .ok (arrayBytes r.networkId ++ beBytes 8 r.revision.toNat)

def readPeerRevocation : PayloadReader NetworkPeerRevocation := do
  let networkId ← readArray 128
  let revision ← readInteger 8
  requireFinished
  Reader.require (networkId ≠ 0) zeroNetworkId
  pure { networkId, revision := UInt64.ofNat revision }

def decodeNetworkPeerRevocation (payload : Bytes) : Except Exn NetworkPeerRevocation := readPeerRevocation.parse payload

/-! ## Network keys -/

def keyEnvelopeSize : ℕ := 16 + 8 + 2 * 32 + 2 * 32 + 12 + 32 + 16 + 64

def envelopeBytes (e : NetworkKeyEnvelope) : Bytes :=
  arrayBytes e.networkId ++ beBytes 8 e.epoch.toNat ++ arrayBytes e.ownerDeviceId ++ arrayBytes e.recipientDeviceId ++
    arrayBytes e.ownerEncryptionPublicKey ++ arrayBytes e.recipientEncryptionPublicKey ++ arrayBytes e.nonce ++
    arrayBytes e.ciphertext ++ arrayBytes e.tag ++ arrayBytes e.signature

def encodeNetworkKeyEnvelope (e : NetworkKeyEnvelope) : Except Exn Bytes := do
  requireKeyEnvelope e
  .ok (envelopeBytes e)

def readKeyEnvelope : PayloadReader NetworkKeyEnvelope := do
  let networkId ← readArray 128
  let epoch ← readInteger 8
  let ownerDeviceId ← readArray 256
  let recipientDeviceId ← readArray 256
  let ownerEncryptionPublicKey ← readArray 256
  let recipientEncryptionPublicKey ← readArray 256
  let nonce ← readArray 96
  let ciphertext ← readArray 256
  let tag ← readArray 128
  let signature ← readArray 512
  requireFinished
  let envelope : NetworkKeyEnvelope :=
    { networkId, epoch := UInt64.ofNat epoch, ownerDeviceId, recipientDeviceId, ownerEncryptionPublicKey,
      recipientEncryptionPublicKey, nonce, ciphertext, tag, signature }
  -- the encoder's `invalid_argument` is caught and thrown again as a `runtime_error`
  Reader.require (validKeyEnvelope envelope) (.runtimeError "network key envelope has invalid identities or epoch")
  pure envelope

def decodeNetworkKeyEnvelope : Bytes → Except Exn NetworkKeyEnvelope :=
  decodeSized keyEnvelopeSize (.runtimeError "network key envelope has invalid size") readKeyEnvelope

def encodeNetworkKeyPublishRequest (envelopes : List NetworkKeyEnvelope) : Except Exn Bytes := do
  check (envelopes ≠ [] ∧ envelopes.length ≤ maxNetworkPeerEntries)
    (.invalidArgument "network key publish has invalid recipient count")
  envelopes.forM requireKeyEnvelope
  .ok (beBytes 2 envelopes.length ++ envelopes.flatMap envelopeBytes)

/-- The loop over the subspans of `key_envelope_size` bytes. -/
def decodeEnvelopes : ℕ → Bytes → Except Exn (List NetworkKeyEnvelope)
  | 0, _ => .ok []
  | count + 1, payload => do
    let envelope ← decodeNetworkKeyEnvelope (payload.take keyEnvelopeSize)
    let envelopes ← decodeEnvelopes count (payload.drop keyEnvelopeSize)
    .ok (envelope :: envelopes)

def decodeNetworkKeyPublishRequest (payload : Bytes) : Except Exn (List NetworkKeyEnvelope) := do
  check (2 ≤ payload.length) (.runtimeError "network key publish is truncated")
  let count := beNat (payload.take 2)
  check (count ≠ 0 ∧ count ≤ maxNetworkPeerEntries ∧ payload.length = 2 + count * keyEnvelopeSize)
    (.runtimeError "network key publish has invalid size")
  decodeEnvelopes count (payload.drop 2)

end LanLink
