import LanLink.Protocol.NetworkPolicy
/-!
# Requests, results and events

The values the relay exchanges with its clients (`network_messages.hpp`,
`user_access.hpp`, `network_management.hpp`, `audit_event.hpp`,
`packet_messages.hpp`), with the checks their encoders make.
-/
open LanLink.Lib

namespace LanLink

def maxNetworkNameSize : ℕ := 128
def maxNetworkListEntries : ℕ := 1024
def maxNetworkPeerEntries : ℕ := 253

inductive NetworkOperation
  | create | list | join | leave | invite | approve | kick | peerState | keyPublish
  deriving DecidableEq, Repr

inductive NetworkResultCode
  | success | pendingApproval | invalidRequest | notFound | alreadyExists | notMember | permissionDenied
  | inviteRequired | targetNotFound | limitReached | conflict | internalError
  deriving DecidableEq, Repr

inductive NetworkEventKind
  | invited | joinRequested | memberJoined | memberLeft | memberKicked
  deriving DecidableEq, Repr

/-! ## Network names -/

/-- A code point a name may contain: no C0 control, DEL or C1 control, no
surrogate, in range, and not encodable in fewer bytes than it was. -/
def nameCodePoint (least codePoint : ℕ) : Bool :=
  least ≤ codePoint && !(0xd800 ≤ codePoint && codePoint ≤ 0xdfff) && codePoint ≤ 0x10ffff &&
    !(codePoint < 0x20 || (0x7f ≤ codePoint && codePoint ≤ 0x9f))

def continuationByte (b : UInt8) : Bool := (b &&& 0xc0) = 0x80

/-- Append the six payload bits of a continuation byte. -/
def continued (codePoint : ℕ) (b : UInt8) : ℕ := codePoint * 64 + b.toNat % 64

/-- The scan of `valid_network_name`: one code point at a time. -/
def nameScan : Text → Bool
  | [] => true
  | b :: rest =>
    if b ≤ 0x7f then nameCodePoint 0 b.toNat && nameScan rest
    else if 0xc2 ≤ b ∧ b ≤ 0xdf then
      match rest with
      | c :: rest => continuationByte c && nameCodePoint 0x80 (continued (b.toNat % 32) c) && nameScan rest
      | [] => false
    else if 0xe0 ≤ b ∧ b ≤ 0xef then
      match rest with
      | c :: d :: rest =>
        continuationByte c && continuationByte d &&
          nameCodePoint 0x800 (continued (continued (b.toNat % 16) c) d) && nameScan rest
      | _ => false
    else if 0xf0 ≤ b ∧ b ≤ 0xf4 then
      match rest with
      | c :: d :: e :: rest =>
        continuationByte c && continuationByte d && continuationByte e &&
          nameCodePoint 0x10000 (continued (continued (continued (b.toNat % 8) c) d) e) && nameScan rest
      | _ => false
    else false

def validNetworkName (name : Text) : Bool :=
  name ≠ [] && name.length ≤ maxNetworkNameSize && nameScan name

/-! ## Requests -/

structure NetworkCreateRequest where
  name : Text
  deriving DecidableEq, Repr

structure NetworkSelectionRequest where
  networkId : NetworkId
  deriving DecidableEq, Repr

structure NetworkMemberRequest where
  networkId : NetworkId
  deviceId : DeviceId
  deriving DecidableEq, Repr

/-- The check of `encode_network_create_request`. -/
def requireCreateRequest (q : NetworkCreateRequest) : Except Exn Unit :=
  check (validNetworkName q.name) (.invalidArgument "network name is invalid")

/-- The check of `encode_network_selection_request`. -/
def requireSelectionRequest (q : NetworkSelectionRequest) : Except Exn Unit :=
  check (q.networkId ≠ 0) (.invalidArgument "network id must not be zero")

/-- The checks of `encode_network_member_request`. -/
def requireMemberRequest (q : NetworkMemberRequest) : Except Exn Unit := do
  check (q.networkId ≠ 0) (.invalidArgument "network id must not be zero")
  check (q.deviceId ≠ 0) (.invalidArgument "network device id must not be zero")

inductive AccessAction
  | accountCreate | accountStatus | enrollmentIssue | deviceEnroll | deviceRevoke | passwordSet | passwordJoin
  | inviteIssue | inviteRedeem | inviteRevoke | networkCreateProtected
  deriving DecidableEq, Repr

structure AccessRequest where
  action : AccessAction := .accountStatus
  networkId : NetworkId := 0
  deviceId : DeviceId := 0
  text : Text := []
  secret : Text := []
  lifetimeSeconds : UInt32 := 300
  maxUses : UInt16 := 1
  requireApproval : Bool := false
  deriving DecidableEq, Repr

/-- The check `string` makes: a length limit, no NUL, CR or LF. -/
def validAccessText (limit : ℕ) (t : Text) : Prop := t.length ≤ limit ∧ 0 ∉ t ∧ 13 ∉ t ∧ 10 ∉ t

instance (limit : ℕ) (t : Text) : Decidable (validAccessText limit t) := inferInstanceAs (Decidable (_ ∧ _))

/-- The checks of `encode_access_request`. -/
def requireAccessRequest (q : AccessRequest) : Except Exn Unit := do
  check (validAccessText 128 q.text) (.invalidArgument "invalid access text")
  check (validAccessText 256 q.secret) (.invalidArgument "invalid access text")

structure AccountDevice where
  deviceId : DeviceId
  label : Text
  revoked : Bool
  deriving DecidableEq, Repr

structure AccessResult where
  action : AccessAction
  code : NetworkResultCode := .success
  accountId : BitVec 256 := 0
  networkId : NetworkId := 0
  text : Text := []
  secret : Text := []
  devices : List AccountDevice := []
  deriving DecidableEq, Repr

/-- The checks of `encode_access_result`. -/
def requireAccessResult (r : AccessResult) : Except Exn Unit := do
  check (r.devices.length ≤ 64) (.invalidArgument "invalid access result")
  check (validAccessText 128 r.text) (.invalidArgument "invalid access text")
  check (validAccessText 512 r.secret) (.invalidArgument "invalid access text")
  r.devices.forM fun d => check (validAccessText 128 d.label) (.invalidArgument "invalid access text")

inductive ManagementAction
  | inspect | replacePolicy | requestGateway
  deriving DecidableEq, Repr

structure ManagementRequest where
  action : ManagementAction := .inspect
  networkId : NetworkId
  policy : NetworkPolicy := {}
  deriving DecidableEq, Repr

/-- The checks of `encode_management_request`. -/
def requireManagementRequest (q : ManagementRequest) : Except Exn Unit := do
  check (q.networkId ≠ 0) (.invalidArgument "invalid management request")
  check (Encodable q.policy) invalidPolicy

/-! ## Audit events -/

inductive AuditKind
  | networkCreate | networkJoin | networkLeave | memberInvite | memberApprove | memberKick | passwordChange
  | inviteIssue | inviteRevoke | accountCreate | deviceEnroll | deviceRevoke | gatewayRequest | policyChange
  | enrollmentIssue
  deriving DecidableEq, Repr

structure AuditEvent where
  sequence : ℕ := 0
  timestampMs : ℕ
  networkId : NetworkId
  actor : DeviceId
  target : DeviceId
  kind : AuditKind
  result : NetworkResultCode := .success
  policyRevision : UInt64 := 0
  deriving DecidableEq, Repr

/-- The checks of `encode_audit_event`: an actor, and numbers that fit an
`int64` column. -/
def requireAuditEvent (e : AuditEvent) : Except Exn Unit :=
  check (e.actor ≠ 0 ∧ e.timestampMs < 2 ^ 63 ∧ e.policyRevision.toNat < 2 ^ 63)
    (.invalidArgument "invalid audit event")

structure ManagementResult where
  action : ManagementAction
  networkId : NetworkId
  code : NetworkResultCode := .success
  pendingRequests : List DeviceId := []
  auditEvents : List AuditEvent := []
  auditWriteFailures : UInt64 := 0
  policy : NetworkPolicy := {}
  deriving DecidableEq, Repr

/-- The checks of `encode_management_result`. -/
def requireManagementResult (r : ManagementResult) : Except Exn Unit := do
  check (r.networkId ≠ 0) (.invalidArgument "invalid management request")
  check (Encodable r.policy) invalidPolicy
  check (r.pendingRequests.length ≤ maxNetworkPeerEntries) (.invalidArgument "too many pending requests")
  check (r.auditEvents.length ≤ 64) (.invalidArgument "too many audit events")
  r.auditEvents.forM requireAuditEvent

/-! ## Results and events -/

structure NetworkOperationResult where
  operation : NetworkOperation
  code : NetworkResultCode
  networkId : NetworkId := 0
  deriving DecidableEq, Repr

/-- `validate_result_for_encode`. -/
def requireOperationResult (r : NetworkOperationResult) : Except Exn Unit := do
  check (r.code = .pendingApproval → r.operation = .join)
    (.invalidArgument "pending approval is only valid for join operations")
  if r.operation = .list then check (r.networkId = 0) (.invalidArgument "list result must not contain a network id")
  else if r.operation = .create ∧ r.code ≠ .success then
    check (r.networkId = 0) (.invalidArgument "failed create result must not contain a network id")
  else check (r.networkId ≠ 0) (.invalidArgument "network id must not be zero")

structure NetworkSummary where
  networkId : NetworkId
  ownerDeviceId : DeviceId
  owner : Bool
  createdAtMs : ℤ
  memberCount : ℕ
  name : Text
  deriving DecidableEq, Repr

/-- `validate_summary_for_encode`. -/
def requireSummary (s : NetworkSummary) : Except Exn Unit := do
  check (s.networkId ≠ 0) (.invalidArgument "network id must not be zero")
  check (s.ownerDeviceId ≠ 0) (.invalidArgument "network device id must not be zero")
  check (0 ≤ s.createdAtMs) (.invalidArgument "network creation timestamp must not be negative")
  check (s.memberCount ≠ 0) (.invalidArgument "network member count must be positive")
  check (validNetworkName s.name) (.invalidArgument "network name is invalid")

/-- The loop of `encode_network_list_result`, given the ids before. -/
def requireSummaries (ids : List NetworkId) : List NetworkSummary → Except Exn Unit
  | [] => .ok ()
  | s :: summaries => do
    check (s.networkId ∉ ids) (.invalidArgument "network list contains a duplicate id")
    requireSummary s
    requireSummaries (s.networkId :: ids) summaries

/-- The checks of `encode_network_list_result`. -/
def requireListResult (networks : List NetworkSummary) : Except Exn Unit := do
  check (networks.length ≤ maxNetworkListEntries) (.lengthError "network list contains too many entries")
  requireSummaries [] networks

structure NetworkEvent where
  kind : NetworkEventKind
  networkId : NetworkId
  deviceId : DeviceId
  deriving DecidableEq, Repr

/-- The checks of `encode_network_event`. -/
def requireEvent (e : NetworkEvent) : Except Exn Unit := do
  check (e.networkId ≠ 0) (.invalidArgument "network id must not be zero")
  check (e.deviceId ≠ 0) (.invalidArgument "network device id must not be zero")

structure NetworkPeer where
  deviceId : DeviceId
  ipv4Address : UInt32
  signedKey : Option SignedDeviceKey := none
  deriving DecidableEq, Repr

structure NetworkPeerState where
  networkId : NetworkId
  revision : UInt64
  subnetAddress : UInt32
  prefixLength : UInt8
  ownAddress : UInt32
  peers : List NetworkPeer
  ownerDeviceId : DeviceId
  keyEpoch : UInt64
  policy : Option NetworkPolicy := none
  deriving DecidableEq, Repr

/-- A host address of the `/24` at `subnet`. -/
def hostAddress (subnet address : UInt32) : Bool := subnet < address && address < subnet + 255

def validPeerState (s : NetworkPeerState) : Bool :=
  s.networkId ≠ 0 && s.prefixLength = 24 && (decide (s.ownerDeviceId = 0) == decide (s.keyEpoch = 0)) &&
    0x0a400000 ≤ s.subnetAddress && s.subnetAddress < 0x0a800000 && s.subnetAddress % 256 = 0 &&
    hostAddress s.subnetAddress s.ownAddress && s.peers.length ≤ maxNetworkPeerEntries &&
    s.peers.all (fun p => p.deviceId ≠ 0 && hostAddress s.subnetAddress p.ipv4Address) &&
    decide (s.peers.map (·.deviceId)).Nodup && decide (s.ownAddress :: s.peers.map (·.ipv4Address)).Nodup

/-- The checks of `encode_network_peer_state`. -/
def requirePeerState (s : NetworkPeerState) : Except Exn Unit := do
  check (validPeerState s) (.invalidArgument "network peer state contains invalid addresses or peers")
  match s.policy with
  | none => .ok ()
  | some policy => check (Encodable policy) invalidPolicy

structure NetworkPeerRevocation where
  networkId : NetworkId := 0
  revision : UInt64 := 0
  deriving DecidableEq, Repr

/-- The check of `encode_network_peer_revocation`. -/
def requirePeerRevocation (r : NetworkPeerRevocation) : Except Exn Unit :=
  check (r.networkId ≠ 0) (.invalidArgument "network id must not be zero")

/-! ## Packets -/

structure EncryptedNetworkPacket where
  networkId : NetworkId
  destinationIpv4 : UInt32
  keyEpoch : UInt64
  sequence : UInt32
  nonce : BitVec 96
  ciphertext : Bytes
  tag : BitVec 128
  deriving DecidableEq, Repr

structure ForwardedNetworkPacket where
  senderDeviceId : DeviceId
  packet : EncryptedNetworkPacket
  deriving DecidableEq, Repr

/-- The last four nonce bytes are the sequence. -/
def validPacket (p : EncryptedNetworkPacket) : Bool :=
  p.networkId ≠ 0 && p.destinationIpv4 ≠ 0 && !(0xf0000000 ≤ p.destinationIpv4 && p.destinationIpv4 ≠ 0xffffffff) &&
    p.keyEpoch ≠ 0 && p.sequence ≠ 0 && 20 ≤ p.ciphertext.length && p.ciphertext.length ≤ 65535 &&
    p.nonce.toNat % 2 ^ 32 = p.sequence.toNat

/-- The check of `encode_encrypted_network_packet`. -/
def requirePacket (p : EncryptedNetworkPacket) : Except Exn Unit :=
  check (validPacket p) (.invalidArgument "encrypted packet header or length is invalid")

def encryptedPacketHeaderSize : ℕ := 16 + 4 + 8 + 4 + 12 + 2

/-- Size of `encode_forwarded_network_packet`: sender, header, ciphertext and
tag. -/
def forwardedSize (p : EncryptedNetworkPacket) : ℕ := 32 + encryptedPacketHeaderSize + p.ciphertext.length + 16

def isIpv4Subnet (subnet : UInt32) (prefixLength : UInt8) : Bool :=
  0 < prefixLength && prefixLength ≤ 30 && (subnet &&& ~~~(subnetMask prefixLength)) = 0

def isIpv4Host (address subnet : UInt32) (prefixLength : UInt8) : Bool :=
  isIpv4Subnet subnet prefixLength && address ≠ subnet && address ≠ (subnet ||| ~~~(subnetMask prefixLength)) &&
    address < 0xe0000000 && (address &&& subnetMask prefixLength) = subnet

def isIpv4Multicast (address : UInt32) : Bool := (address &&& 0xf0000000) = 0xe0000000

def isIpv4ScopedMulticast (address : UInt32) : Bool :=
  (address &&& 0xff000000) = 0xef000000 || address = 0xe00000fb || address = 0xe00000fc

def isIpv4FanoutDestination (destination subnet : UInt32) (prefixLength : UInt8) : Bool :=
  if ¬ isIpv4Subnet subnet prefixLength then false
  else destination = 0xffffffff || isIpv4ScopedMulticast destination ||
    destination = (subnet ||| ~~~(subnetMask prefixLength))

/-! ## Network keys and peer candidates -/

structure NetworkKeyEnvelope where
  networkId : NetworkId
  epoch : UInt64
  ownerDeviceId : DeviceId
  recipientDeviceId : DeviceId
  ownerEncryptionPublicKey : EncryptionPublicKey
  recipientEncryptionPublicKey : EncryptionPublicKey
  nonce : BitVec 96
  ciphertext : BitVec 256
  tag : BitVec 128
  signature : Signature
  deriving DecidableEq, Repr

def validKeyEnvelope (e : NetworkKeyEnvelope) : Bool :=
  e.networkId ≠ 0 && e.epoch ≠ 0 && e.ownerDeviceId ≠ 0 && e.recipientDeviceId ≠ 0 &&
    e.ownerDeviceId ≠ e.recipientDeviceId && e.ownerEncryptionPublicKey ≠ 0 && e.recipientEncryptionPublicKey ≠ 0

/-- The check of `encode_network_key_envelope`. -/
def requireKeyEnvelope (e : NetworkKeyEnvelope) : Except Exn Unit :=
  check (validKeyEnvelope e) (.invalidArgument "network key envelope has invalid identities or epoch")

/-- `signed_transcript`: the domain and the envelope without its signature. -/
def signedTranscript (e : NetworkKeyEnvelope) : Bytes :=
  text "lanlink-network-key-envelope-v1" ++ arrayBytes e.networkId ++ beBytes 8 e.epoch.toNat ++
    arrayBytes e.ownerDeviceId ++ arrayBytes e.recipientDeviceId ++ arrayBytes e.ownerEncryptionPublicKey ++
    arrayBytes e.recipientEncryptionPublicKey ++ arrayBytes e.nonce ++ arrayBytes e.ciphertext ++ arrayBytes e.tag

/-- An envelope that does not encode has no valid signature. -/
def verifyNetworkKeyEnvelope (crypto : Crypto) (e : NetworkKeyEnvelope) (owner : PublicKey) : Bool :=
  makeDeviceId crypto owner = e.ownerDeviceId && validKeyEnvelope e &&
    crypto.verifySignature owner (signedTranscript e) e.signature

structure CandidateExchange where
  networkId : NetworkId
  sender : DeviceId
  recipient : DeviceId
  senderSession : EncryptionPublicKey
  recipientSession : EncryptionPublicKey
  keyEpoch : UInt64
  generation : UInt64
  deriving DecidableEq, Repr

/-! ## Invitation links -/

def makeInviteLink (network : NetworkId) (secret : Text) : Text :=
  text "lanlink://join/" ++ hexEncode (arrayBytes network) ++ text "/" ++ secret

def makeInviteCode (network : NetworkId) (secret : Text) : Text :=
  text "LL1." ++ hexEncode (arrayBytes network) ++ text "." ++ secret

end LanLink
